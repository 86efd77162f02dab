import MistyWorld.Run
import MistyWorld.Word
import Mathlib.Logic.Function.Basic

/-!
# Currencies and their caps

`Player::ModifyCurrency` and `Player::ResetCurrencyWeekCap`. A currency keeps a total and
a weekly count. A positive count is cut by the week cap, then by the total cap; the week
caps of the conquest currencies follow the ratings and may move between calls. A call on
a conquest meta currency calls itself for the conquest points.

The counts are 32-bit words, the new ones computed in signed arithmetic. The comment in
the source, that the week cap minus the old week count is never negative, fails when the
cap has dropped below the week count : the call then takes from the total
(`modifyCurrency_lowered_cap`). The call for the conquest points is made with the
requested count, cut by the caps themselves but not by what is left of them.

`Steady` excludes these cases for one call, and a run of steady calls respects the caps
(`currency_run_capped`). The gains of the week are counted by `TrackedCurrencies`, which
runs beside the code and does not influence it (`currencies_run`).
-/

open Option Word Machine

namespace MistyWorld

/-! ## The data -/

/-- `PlayerCurrencyState`. -/
inductive PlayerCurrencyState
  | unchanged
  | changed
  | new
  | removed
  deriving DecidableEq, Repr

/-- `PlayerCurrency`. -/
structure PlayerCurrency where
  state : PlayerCurrencyState
  totalCount : ℕ
  weekCount : ℕ
  deriving DecidableEq, Repr

/-- `CurrencyTypesEntry`. -/
structure CurrencyTypesEntry where
  id : ℕ
  category : ℕ
  totalCap : ℕ
  weekCap : ℕ
  deriving DecidableEq, Repr

/-- `CURRENCY_TYPE_CONQUEST_POINTS`. -/
def conquestPoints : ℕ := 390

/-- `CURRENCY_TYPE_HONOR_POINTS`. -/
def honorPoints : ℕ := 392

/-- `CURRENCY_TYPE_JUSTICE_POINTS`. -/
def justicePoints : ℕ := 395

/-- `CURRENCY_TYPE_CONQUEST_META_ARENA`. -/
def conquestMetaArena : ℕ := 483

/-- `CURRENCY_TYPE_CONQUEST_META_RBG`. -/
def conquestMetaRbg : ℕ := 484

/-- `CURRENCY_CATEGORY_META_CONQUEST`. -/
def categoryMetaConquest : ℕ := 89

/-- `CURRENCY_PRECISION`. -/
def currencyPrecision : ℕ := 100

/-- `sCurrencyTypesStore` and the two caps of the configuration. The conquest points are in
the store and are no meta currency. -/
structure CurrencyTypes where
  lookupEntry : ℕ → Option CurrencyTypesEntry
  maxHonorPoints : ℕ
  maxJusticePoints : ℕ
  id_eq : ∀ i e, lookupEntry i = some e → e.id = i
  conquest : CurrencyTypesEntry
  conquest_mem : lookupEntry conquestPoints = some conquest
  conquest_category : conquest.category ≠ categoryMetaConquest

/-- `BgConquestRatingCalculator(GetRBGPersonalRating())` : the rating is always 0. -/
def rbgCap : ℕ := 1650

/-- What a call reads besides the storage : the conquest cap of the player's arena rating
(`ConquestRatingCalculator`) and the multiplication of a count by the auras, which are computed
in floating point. A multiplier of at least one keeps the sign. -/
structure CurrencyRates where
  arenaCap : ℕ
  gain : ℕ → ℤ → ℤ
  arenaCap_pos : 0 < arenaCap
  arenaCap_lt : arenaCap < 5000
  gain_pos : ∀ id c, 0 < c → 0 < gain id c
  gain_neg : ∀ id c, c < 0 → gain id c < 0

/-- `_currencyStorage`. -/
abbrev CurrencyStorage := ℕ → Option PlayerCurrency

/-! ## The caps -/

/-- `Player::GetCurrencyWeekCap(entry)`, for the currencies other than conquest points. -/
def ratedWeekCap (rates : CurrencyRates) (e : CurrencyTypesEntry) : ℕ :=
  if e.id = conquestMetaArena then toU32 (rates.arenaCap * currencyPrecision)
  else if e.id = conquestMetaRbg then toU32 (rbgCap * currencyPrecision)
  else e.weekCap

/-- `Player::GetCurrencyWeekCap(id, false)`. -/
def weekCapOfId (types : CurrencyTypes) (rates : CurrencyRates) (id : ℕ) : ℕ :=
  match types.lookupEntry id with
  | none => 0
  | some e => ratedWeekCap rates e

/-- `Player::GetCurrencyWeekCap(entry)`. -/
def getCurrencyWeekCap (types : CurrencyTypes) (rates : CurrencyRates)
    (e : CurrencyTypesEntry) : ℕ :=
  if e.id = conquestPoints then
    max (weekCapOfId types rates conquestMetaArena) (weekCapOfId types rates conquestMetaRbg)
  else ratedWeekCap rates e

/-- `Player::GetCurrencyTotalCap(entry)`. -/
def getCurrencyTotalCap (types : CurrencyTypes) (e : CurrencyTypesEntry) : ℕ :=
  if e.id = honorPoints then if 0 < types.maxHonorPoints then types.maxHonorPoints else e.totalCap
  else if e.id = justicePoints then
    if 0 < types.maxJusticePoints then types.maxJusticePoints else e.totalCap
  else e.totalCap

/-! ## ModifyCurrency -/

/-- The record of a currency, as `ModifyCurrency` finds or makes it. -/
def currencyRecord (s : CurrencyStorage) (id : ℕ) : PlayerCurrency :=
  (s id).getD ⟨.new, 0, 0⟩

/-- The count is no more than the week cap and the total cap, where these are used. -/
def cappedCount (weekCap totalCap : ℕ) (count : ℤ) : ℤ :=
  let count := if weekCap ≠ 0 ∧ toI32 weekCap < count then toI32 weekCap else count
  if totalCap ≠ 0 ∧ toI32 totalCap < count then toI32 totalCap else count

/-- `newTotalCount` and `newWeekCount`, in `int32`. -/
def newCounts (weekCap totalCap oldTotalCount oldWeekCount : ℕ) (count : ℤ) : ℤ × ℤ :=
  let newTotalCount := max (toI32 (toI32 oldTotalCount + count)) 0
  let newWeekCount := max (toI32 (toI32 oldWeekCount + if 0 < count then count else 0)) 0
  let weekly :=
    if weekCap ≠ 0 ∧ toI32 weekCap < newWeekCount then
      (toI32 (oldTotalCount + (weekCap - oldWeekCount)), toI32 weekCap)
    else (newTotalCount, newWeekCount)
  if totalCap ≠ 0 ∧ toI32 totalCap < weekly.1 then (toI32 totalCap, toI32 weekCap) else weekly

/-- `Player::ModifyCurrency` up to its call of itself : the storage, and the count the call
for the conquest points is made with. -/
def modifyCurrencyOnce (types : CurrencyTypes) (rates : CurrencyRates) (s : CurrencyStorage)
    (id : ℕ) (count : ℤ) (ignoreMultipliers : Bool) : CurrencyStorage × Option ℤ :=
  if count = 0 then (s, none) else
  match types.lookupEntry id with
  | none => (s, none)
  | some currency =>
    let count := if ignoreMultipliers then count else rates.gain id count
    let old := currencyRecord s id
    let weekCap := getCurrencyWeekCap types rates currency
    let totalCap := getCurrencyTotalCap types currency
    let count := cappedCount weekCap totalCap count
    let new := newCounts weekCap totalCap old.totalCount old.weekCount count
    if toU32 new.1 ≠ old.totalCount then
      let state := if old.state ≠ .new then .changed else old.state
      (Function.update s id (some ⟨state, toU32 new.1, toU32 new.2⟩),
        if currency.category = categoryMetaConquest then some count else none)
    else (Function.update s id (some old), none)

/-- `Player::ModifyCurrency`. The store knows every currency the server passes here; the
conquest points are no meta currency, so the call of itself makes no further one. -/
def modifyCurrency (types : CurrencyTypes) (rates : CurrencyRates) (s : CurrencyStorage)
    (id : ℕ) (count : ℤ) (ignoreMultipliers : Bool) : CurrencyStorage :=
  match modifyCurrencyOnce types rates s id count ignoreMultipliers with
  | (s, none) => s
  | (s, some count) => (modifyCurrencyOnce types rates s conquestPoints count false).1

/-- `Player::ResetCurrencyWeekCap`. -/
def resetCurrencyWeekCap (s : CurrencyStorage) : CurrencyStorage :=
  fun id => (s id).map fun c => { c with weekCount := 0, state := .changed }

/-- The calls on a player's currencies. -/
inductive CurrencyRequest
  | modify (rates : CurrencyRates) (id : ℕ) (count : ℤ) (ignoreMultipliers : Bool)
  | resetWeek

/-- Serve one call. -/
def currencyStep (types : CurrencyTypes) (s : CurrencyStorage) : CurrencyRequest → CurrencyStorage
  | .modify rates id count ignoreMultipliers =>
    modifyCurrency types rates s id count ignoreMultipliers
  | .resetWeek => resetCurrencyWeekCap s

/-! ## What one call moves -/

/-- The caps leave room for a gain of `n`. -/
def Fits (weekCap totalCap : ℕ) (c : PlayerCurrency) (n : ℕ) : Prop :=
  (weekCap ≠ 0 → c.weekCount + n ≤ weekCap) ∧ (totalCap ≠ 0 → c.totalCount + n ≤ totalCap)

/-- A count of this sign can move `n` : the caps leave room for a gain, the total covers a
loss. -/
def Room (weekCap totalCap : ℕ) (c : PlayerCurrency) (count : ℤ) (n : ℕ) : Prop :=
  if 0 < count then Fits weekCap totalCap c n else n ≤ c.totalCount

/-- What a count moves : all of it, or as much as there is room for. -/
def moved (weekCap totalCap : ℕ) (c : PlayerCurrency) (count : ℤ) : ℕ :=
  if 0 < count then
    min count.toNat (min (if weekCap ≠ 0 then weekCap - c.weekCount else count.toNat)
      (if totalCap ≠ 0 then totalCap - c.totalCount else count.toNat))
  else min (-count).toNat c.totalCount

/-- The words of a call do not wrap around, and the week cap has not dropped below the week
count. -/
structure SteadyCall (weekCap totalCap : ℕ) (c : PlayerCurrency) (count : ℤ) : Prop where
  count_lo : -2 ^ 31 ≤ count
  count_hi : count < 2 ^ 31
  weekCap_lt : weekCap < 2 ^ 31
  totalCap_lt : totalCap < 2 ^ 31
  week_le : weekCap ≠ 0 → c.weekCount ≤ weekCap
  total_add : c.totalCount + cappedCount weekCap totalCap count < 2 ^ 31
  week_add : c.weekCount + cappedCount weekCap totalCap count < 2 ^ 31

/-- The counts are signed words and the total is within its cap. -/
structure CurrencyOk (totalCap : ℕ) (c : PlayerCurrency) : Prop where
  total_lt : c.totalCount < 2 ^ 31
  week_lt : c.weekCount < 2 ^ 31
  total_le : totalCap ≠ 0 → c.totalCount ≤ totalCap

variable {weekCap totalCap : ℕ} {c : PlayerCurrency} {count : ℤ}

section

variable (hw : weekCap < 2 ^ 31)
include hw

theorem cappedCount_eq (ht : totalCap < 2 ^ 31) :
    cappedCount weekCap totalCap count =
      min (if weekCap ≠ 0 then min count weekCap else count)
        (if totalCap ≠ 0 then (totalCap : ℤ) else count) := by
  unfold cappedCount
  rw [toI32_of_range (z := weekCap) (by omega) (by omega),
    toI32_of_range (z := totalCap) (by omega) (by omega)]
  dsimp only
  split_ifs <;> omega

theorem cappedCount_pos (ht : totalCap < 2 ^ 31) (hc : 0 < count) :
    0 < cappedCount weekCap totalCap count := by
  rw [cappedCount_eq hw ht]
  split_ifs <;> omega

theorem cappedCount_of_neg (ht : totalCap < 2 ^ 31) (hc : count < 0) :
    cappedCount weekCap totalCap count = count := by
  rw [cappedCount_eq hw ht]
  split_ifs <;> omega

/-- Cutting the count by the caps does not change what it moves. -/
theorem moved_cappedCount (ht : totalCap < 2 ^ 31) (hc : count ≠ 0) :
    moved weekCap totalCap c (cappedCount weekCap totalCap count) =
      moved weekCap totalCap c count := by
  rcases lt_or_gt_of_ne hc with hneg | hpos
  · rw [cappedCount_of_neg hw ht hneg]
  · unfold moved
    rw [if_pos (cappedCount_pos hw ht hpos), if_pos hpos, cappedCount_eq hw ht]
    split_ifs <;> omega

end

/-- What a count moves is what there is room for. -/
theorem room_iff_le_moved (hok : CurrencyOk totalCap c) (hweek : weekCap ≠ 0 → c.weekCount ≤ weekCap)
    {n : ℕ} (hn : (n : ℤ) ≤ |count|) :
    Room weekCap totalCap c count n ↔ n ≤ moved weekCap totalCap c count := by
  have htot := hok.total_le
  unfold Room moved Fits
  by_cases hpos : 0 < count
  · rw [abs_of_pos hpos] at hn
    split_ifs <;> omega
  · rw [abs_of_nonpos (not_lt.1 hpos)] at hn
    rw [if_neg hpos, if_neg hpos]
    omega

theorem moved_le_abs : (moved weekCap totalCap c count : ℤ) ≤ |count| := by
  unfold moved
  split_ifs with hpos
  all_goals first | rw [abs_of_pos hpos] | rw [abs_of_nonpos (not_lt.1 hpos)]
  all_goals omega

/-- A steady gain adds what it moves to the total, and at least as much to a capped week. -/
theorem newCounts_gain (hok : CurrencyOk totalCap c) (hs : SteadyCall weekCap totalCap c count)
    (hc : 0 < count) :
    let new := newCounts weekCap totalCap c.totalCount c.weekCount
      (cappedCount weekCap totalCap count)
    new.1 = c.totalCount + moved weekCap totalCap c count ∧ 0 ≤ new.2 ∧ new.2 < 2 ^ 31 ∧
      (weekCap ≠ 0 → c.weekCount + moved weekCap totalCap c count ≤ new.2 ∧ new.2 ≤ weekCap) := by
  obtain ⟨htot, hwk, hle⟩ := hok
  obtain ⟨-, -, hwc, htc, hweek, htadd, hwadd⟩ := hs
  have hcap := cappedCount_pos hwc htc hc
  rw [← moved_cappedCount hwc htc hc.ne']
  have hcapw : weekCap ≠ 0 → cappedCount weekCap totalCap count ≤ weekCap := by
    rw [cappedCount_eq hwc htc]
    split_ifs <;> omega
  have hcapt : totalCap ≠ 0 → cappedCount weekCap totalCap count ≤ totalCap := by
    rw [cappedCount_eq hwc htc]
    split_ifs <;> omega
  generalize cappedCount weekCap totalCap count = k at *
  unfold newCounts moved
  rw [if_pos hcap, if_pos hcap, toI32_of_range (z := c.totalCount) (by omega) (by omega),
    toI32_of_range (z := c.weekCount) (by omega) (by omega),
    toI32_of_range (z := weekCap) (by omega) (by omega),
    toI32_of_range (z := totalCap) (by omega) (by omega),
    toI32_of_range (z := c.totalCount + k) (by omega) (by omega),
    toI32_of_range (z := c.weekCount + k) (by omega) (by omega)]
  dsimp only
  by_cases hover : weekCap ≠ 0 ∧ (weekCap : ℤ) < max (c.weekCount + k) 0
  · have hroom := hweek hover.1
    rw [if_pos hover, toI32_of_range (z := c.totalCount + (weekCap - c.weekCount)) (by omega)
      (by omega)]
    split_ifs <;> dsimp only <;> omega
  · rw [if_neg hover]
    split_ifs <;> dsimp only <;> omega

/-- A steady loss takes what it moves from the total and leaves the week alone. -/
theorem newCounts_loss (hok : CurrencyOk totalCap c) (hs : SteadyCall weekCap totalCap c count)
    (hc : count < 0) :
    newCounts weekCap totalCap c.totalCount c.weekCount (cappedCount weekCap totalCap count) =
      ((c.totalCount : ℤ) - moved weekCap totalCap c count, (c.weekCount : ℤ)) := by
  obtain ⟨htot, hwk, hle⟩ := hok
  obtain ⟨hlo, -, hwc, htc, hweek, -, -⟩ := hs
  rw [cappedCount_of_neg hwc htc hc]
  unfold newCounts moved
  rw [if_neg hc.not_gt, if_neg hc.not_gt,
    toI32_of_range (z := c.totalCount) (by omega) (by omega),
    toI32_of_range (z := c.weekCount) (by omega) (by omega),
    toI32_of_range (z := weekCap) (by omega) (by omega),
    toI32_of_range (z := totalCap) (by omega) (by omega),
    toI32_of_range (z := c.totalCount + count) (by omega) (by omega),
    toI32_of_range (z := c.weekCount + 0) (by omega) (by omega)]
  have hweek' : ¬(weekCap ≠ 0 ∧ (weekCap : ℤ) < max ((c.weekCount : ℤ) + 0) 0) := by omega
  have htotal' : ¬(totalCap ≠ 0 ∧ (totalCap : ℤ) < max (c.totalCount + count) 0) := by omega
  dsimp only
  rw [if_neg hweek', if_neg htotal', Prod.mk.injEq]
  omega

/-- The effect of a steady call on the record of its currency. -/
structure Moves (weekCap totalCap : ℕ) (old new : PlayerCurrency) (count : ℤ) : Prop where
  gain : 0 < count → new.totalCount = old.totalCount + moved weekCap totalCap old count
  loss : count < 0 → new.totalCount + moved weekCap totalCap old count = old.totalCount
  week : weekCap ≠ 0 → new.weekCount ≤ weekCap ∧
    old.weekCount + (new.totalCount - old.totalCount) ≤ new.weekCount
  ok : CurrencyOk totalCap new

theorem Moves.of_moved_eq_zero (hok : CurrencyOk totalCap c)
    (hs : SteadyCall weekCap totalCap c count) (h0 : moved weekCap totalCap c count = 0) :
    Moves weekCap totalCap c c count := by
  refine ⟨fun _ => by omega, fun _ => by omega, fun hw => ?_, hok⟩
  have := hs.week_le hw
  omega

theorem moved_le_room (weekCap : ℕ) (count : ℤ) (hok : CurrencyOk totalCap c) :
    (totalCap ≠ 0 → 0 < count → c.totalCount + moved weekCap totalCap c count ≤ totalCap) ∧
      (count ≤ 0 → moved weekCap totalCap c count ≤ c.totalCount) := by
  have htot := hok.total_le
  unfold moved
  constructor
  · intro h0 hpos
    have hle := htot h0
    rw [if_pos hpos, if_pos h0]
    omega
  · intro hneg
    rw [if_neg (not_lt.2 hneg)]
    omega

theorem moves_newCounts (state : PlayerCurrencyState) (hok : CurrencyOk totalCap c)
    (hs : SteadyCall weekCap totalCap c count) (hc : count ≠ 0) :
    let new := newCounts weekCap totalCap c.totalCount c.weekCount
      (cappedCount weekCap totalCap count)
    Moves weekCap totalCap c ⟨state, toU32 new.1, toU32 new.2⟩ count ∧
      (toU32 new.1 ≠ c.totalCount ↔ moved weekCap totalCap c count ≠ 0) := by
  have htot := hok.total_lt
  have hwk := hok.week_lt
  have hweek := hs.week_le
  have hroom := moved_le_room weekCap count hok
  rcases lt_or_gt_of_ne hc with hneg | hpos
  · have hle := hroom.2 hneg.le
    rw [newCounts_loss hok hs hneg]
    have htoU : toU32 ((c.totalCount : ℤ) - moved weekCap totalCap c count) =
        c.totalCount - moved weekCap totalCap c count := by
      unfold toU32
      omega
    have hwU : toU32 (c.weekCount : ℤ) = c.weekCount := toU32_of_lt (by omega)
    simp only [htoU, hwU]
    refine ⟨⟨fun h => by omega, fun _ => by simp only; omega, fun h0 => ?_, ?_, hwk, fun h0 => ?_⟩, ?_⟩
    · simp only
      omega
    · simp only
      omega
    · simp only
      have := hok.total_le h0
      omega
    · omega
  · obtain ⟨h1, h2, h3, h4⟩ := newCounts_gain hok hs hpos
    have hcap := cappedCount_pos hs.weekCap_lt hs.totalCap_lt hpos
    have hlt : (moved weekCap totalCap c count : ℤ) ≤ cappedCount weekCap totalCap count := by
      rw [← moved_cappedCount hs.weekCap_lt hs.totalCap_lt hc]
      exact moved_le_abs.trans (abs_of_pos hcap).le
    have hadd := hs.total_add
    dsimp only at h1 h2 h3 h4 ⊢
    rw [h1, ← Nat.cast_add, toU32_of_lt (n := c.totalCount + moved weekCap totalCap c count)
      (by omega)]
    have hwU := toU32_of_range h2 (by omega)
    refine ⟨⟨fun _ => rfl, fun h => by omega, fun h0 => ?_, ?_, ?_, fun h0 => ?_⟩, ?_⟩
    · have := h4 h0
      dsimp only
      omega
    · dsimp only
      omega
    · dsimp only
      omega
    · exact hroom.1 h0 hpos
    · omega

variable {types : CurrencyTypes} {rates : CurrencyRates} {s : CurrencyStorage} {id : ℕ}
  {e : CurrencyTypesEntry} {ignoreMultipliers : Bool}

/-- The count after the multipliers. -/
def multiplied (rates : CurrencyRates) (id : ℕ) (count : ℤ) (ignoreMultipliers : Bool) : ℤ :=
  if ignoreMultipliers then count else rates.gain id count

theorem multiplied_pos (hc : 0 < count) : 0 < multiplied rates id count ignoreMultipliers := by
  unfold multiplied
  split_ifs
  · exact hc
  · exact rates.gain_pos id count hc

theorem multiplied_neg (hc : count < 0) : multiplied rates id count ignoreMultipliers < 0 := by
  unfold multiplied
  split_ifs
  · exact hc
  · exact rates.gain_neg id count hc

theorem multiplied_ne_zero (hc : count ≠ 0) : multiplied rates id count ignoreMultipliers ≠ 0 := by
  rcases lt_or_gt_of_ne hc with hneg | hpos
  · exact (multiplied_neg hneg).ne
  · exact (multiplied_pos hpos).ne'

/-- A call writes the record of its currency only, and asks for the conquest points when a
meta currency has moved. -/
theorem modifyCurrencyOnce_spec (he : types.lookupEntry id = some e) (hc : count ≠ 0)
    (hok : CurrencyOk (getCurrencyTotalCap types e) (currencyRecord s id))
    (hs : SteadyCall (getCurrencyWeekCap types rates e) (getCurrencyTotalCap types e)
      (currencyRecord s id) (multiplied rates id count ignoreMultipliers)) :
    ∃ new, (modifyCurrencyOnce types rates s id count ignoreMultipliers).1 =
        Function.update s id (some new) ∧
      Moves (getCurrencyWeekCap types rates e) (getCurrencyTotalCap types e)
        (currencyRecord s id) new (multiplied rates id count ignoreMultipliers) ∧
      (modifyCurrencyOnce types rates s id count ignoreMultipliers).2 =
        if moved (getCurrencyWeekCap types rates e) (getCurrencyTotalCap types e)
            (currencyRecord s id) (multiplied rates id count ignoreMultipliers) ≠ 0 ∧
          e.category = categoryMetaConquest then
          some (cappedCount (getCurrencyWeekCap types rates e) (getCurrencyTotalCap types e)
            (multiplied rates id count ignoreMultipliers))
        else none := by
  have hm : multiplied rates id count ignoreMultipliers ≠ 0 := multiplied_ne_zero hc
  simp only [modifyCurrencyOnce, if_neg hc, he]
  rw [← multiplied]
  generalize multiplied rates id count ignoreMultipliers = k at *
  generalize getCurrencyWeekCap types rates e = wc at *
  generalize getCurrencyTotalCap types e = tc at *
  have hiff := (moves_newCounts .new hok hs hm).2
  by_cases h0 : moved wc tc (currencyRecord s id) k = 0
  · rw [if_neg (fun h => hiff.1 h h0), if_neg (fun h => h.1 h0)]
    exact ⟨_, rfl, Moves.of_moved_eq_zero hok hs h0, rfl⟩
  · rw [if_pos (hiff.2 h0)]
    refine ⟨_, rfl, (moves_newCounts _ hok hs hm).1, ?_⟩
    by_cases hcat : e.category = categoryMetaConquest
    · simp [hcat, h0]
    · simp [hcat]

/-! ## Runs -/

/-- The room of a currency of the store for `n`, at a count of this sign. -/
def HasRoom (types : CurrencyTypes) (rates : CurrencyRates) (s : CurrencyStorage)
    (e : CurrencyTypesEntry) (count : ℤ) (n : ℕ) : Prop :=
  Room (getCurrencyWeekCap types rates e) (getCurrencyTotalCap types e) (currencyRecord s e.id)
    count n

/-- `SteadyCall` for a currency of the store. -/
def SteadyEntry (types : CurrencyTypes) (rates : CurrencyRates) (s : CurrencyStorage)
    (e : CurrencyTypesEntry) (count : ℤ) : Prop :=
  SteadyCall (getCurrencyWeekCap types rates e) (getCurrencyTotalCap types e)
    (currencyRecord s e.id) count

/-- A call on a meta currency reaches the conquest points as it should : there is no room
for the count at all, or the conquest points have no multiplier of their own and, up to
the count, room for exactly the same amounts. -/
def SteadyMeta (types : CurrencyTypes) (rates : CurrencyRates) (s : CurrencyStorage)
    (e : CurrencyTypesEntry) (count : ℤ) : Prop :=
  ¬HasRoom types rates s e count 1 ∨
    rates.gain conquestPoints count = count ∧ SteadyEntry types rates s types.conquest count ∧
      ∀ n : ℕ, (n : ℤ) ≤ |count| →
        (HasRoom types rates s e count n ↔ HasRoom types rates s types.conquest count n)

/-- The call stays within its words and caps. -/
def Steady (types : CurrencyTypes) (s : CurrencyStorage) : CurrencyRequest → Prop
  | .modify rates id count ignoreMultipliers =>
    ∀ e, types.lookupEntry id = some e → count ≠ 0 →
      SteadyEntry types rates s e (multiplied rates id count ignoreMultipliers) ∧
      (e.category = categoryMetaConquest →
        SteadyMeta types rates s e (cappedCount (getCurrencyWeekCap types rates e)
          (getCurrencyTotalCap types e) (multiplied rates id count ignoreMultipliers)))
  | .resetWeek => True

/-- The storage beside what was credited since the last reset and the largest week cap in
force since then, for each currency. -/
structure TrackedCurrencies where
  storage : CurrencyStorage
  credited : ℕ → ℕ
  largestCap : ℕ → ℕ

/-- The week cap in force for `id`. -/
def weekCapInForce (types : CurrencyTypes) (rates : CurrencyRates) (id : ℕ) : ℕ :=
  match types.lookupEntry id with
  | none => 0
  | some e => getCurrencyWeekCap types rates e

/-- `currencyStep`, with the gains and the caps recorded. -/
def trackedStep (types : CurrencyTypes) (t : TrackedCurrencies) (r : CurrencyRequest) :
    TrackedCurrencies :=
  match r with
  | .modify rates _ _ _ =>
    { storage := currencyStep types t.storage r
      credited := fun i => t.credited i +
        ((currencyRecord (currencyStep types t.storage r) i).totalCount -
          (currencyRecord t.storage i).totalCount)
      largestCap := fun i => max (t.largestCap i) (weekCapInForce types rates i) }
  | .resetWeek => ⟨currencyStep types t.storage r, fun _ => 0, fun _ => 0⟩

/-- Tracking does not change what the code does. -/
theorem currencies_run (types : CurrencyTypes) : ∀ (rs : List CurrencyRequest)
    (t : TrackedCurrencies),
    (run (trackedStep types) t rs).storage = run (currencyStep types) t.storage rs
  | [], _ => rfl
  | r :: rs, t => by
    rw [run_cons, run_cons, currencies_run types rs]
    cases r <;> rfl

/-- The currency has a week cap. -/
def WeekCapped (types : CurrencyTypes) (e : CurrencyTypesEntry) : Prop :=
  ∃ rates : CurrencyRates, getCurrencyWeekCap types rates e ≠ 0

theorem ratedWeekCap_ne_zero {rates' : CurrencyRates} (h : ratedWeekCap rates e ≠ 0) :
    ratedWeekCap rates' e ≠ 0 := by
  have ha := rates'.arenaCap_pos
  have ha' := rates'.arenaCap_lt
  unfold ratedWeekCap rbgCap currencyPrecision toU32 at *
  split_ifs at * <;> omega

/-- The ratings move a week cap but never remove it. -/
theorem WeekCapped.ne_zero (h : WeekCapped types e) (rates : CurrencyRates) :
    getCurrencyWeekCap types rates e ≠ 0 := by
  obtain ⟨rates', h⟩ := h
  have hid : ∀ i, weekCapOfId types rates' i ≠ 0 → weekCapOfId types rates i ≠ 0 := by
    intro i hi
    unfold weekCapOfId at *
    split at hi
    · exact absurd rfl hi
    · exact ratedWeekCap_ne_zero hi
  unfold getCurrencyWeekCap at *
  split_ifs at * with hc
  · have h1 := hid conquestMetaArena
    have h2 := hid conquestMetaRbg
    omega
  · exact ratedWeekCap_ne_zero h

/-- The storage is in order and the gains of the week are within its count and the caps. -/
structure TrackedOk (types : CurrencyTypes) (t : TrackedCurrencies) : Prop where
  ok : ∀ i e, types.lookupEntry i = some e →
    CurrencyOk (getCurrencyTotalCap types e) (currencyRecord t.storage i)
  week : ∀ i e, types.lookupEntry i = some e → WeekCapped types e →
    t.credited i ≤ (currencyRecord t.storage i).weekCount
  cap : ∀ i e, types.lookupEntry i = some e → WeekCapped types e →
    t.credited i ≤ t.largestCap i

/-- What a call does to the totals, and what holds after it. -/
structure CapsRespected (types : CurrencyTypes) (t : TrackedCurrencies) (r : CurrencyRequest) :
    Prop where
  total : ∀ i e, types.lookupEntry i = some e → getCurrencyTotalCap types e ≠ 0 →
    (currencyRecord (trackedStep types t r).storage i).totalCount ≤ getCurrencyTotalCap types e
  gain : ∀ rates id count ignore, r = .modify rates id count ignore → 0 < count → ∀ i,
    (currencyRecord t.storage i).totalCount ≤
      (currencyRecord (trackedStep types t r).storage i).totalCount
  loss : ∀ rates id count ignore, r = .modify rates id count ignore → count < 0 → ∀ i,
    (currencyRecord (trackedStep types t r).storage i).totalCount ≤
      (currencyRecord t.storage i).totalCount
  week : ∀ i e, types.lookupEntry i = some e → WeekCapped types e →
    (trackedStep types t r).credited i ≤ (trackedStep types t r).largestCap i
  conquest : ∀ rates id count ignore e, r = .modify rates id count ignore →
    types.lookupEntry id = some e → e.category = categoryMetaConquest →
    ((currencyRecord (trackedStep types t r).storage conquestPoints).totalCount : ℤ) -
        (currencyRecord t.storage conquestPoints).totalCount =
      (currencyRecord (trackedStep types t r).storage id).totalCount -
        (currencyRecord t.storage id).totalCount

/-- Each record is kept or moved by a count of the sign of the request. -/
def Effect (types : CurrencyTypes) (rates : CurrencyRates) (s s' : CurrencyStorage)
    (count : ℤ) : Prop :=
  ∀ i, currencyRecord s' i = currencyRecord s i ∨
    ∃ e k, types.lookupEntry i = some e ∧ (0 < count → 0 < k) ∧ (count < 0 → k < 0) ∧
      Moves (getCurrencyWeekCap types rates e) (getCurrencyTotalCap types e) (currencyRecord s i)
        (currencyRecord s' i) k

theorem currencyRecord_update_self (s : CurrencyStorage) (id : ℕ) (c : PlayerCurrency) :
    currencyRecord (Function.update s id (some c)) id = c := by
  simp [currencyRecord]

theorem currencyRecord_update_of_ne {i : ℕ} (h : i ≠ id) (c : PlayerCurrency) :
    currencyRecord (Function.update s id (some c)) i = currencyRecord s i := by
  simp [currencyRecord, h]

theorem Effect.refl (count : ℤ) : Effect types rates s s count :=
  fun _ => .inl rfl

theorem Effect.update {k : ℤ} {new : PlayerCurrency} (he : types.lookupEntry id = some e)
    (hpos : 0 < count → 0 < k) (hneg : count < 0 → k < 0)
    (hm : Moves (getCurrencyWeekCap types rates e) (getCurrencyTotalCap types e)
      (currencyRecord s id) new k) :
    Effect types rates s (Function.update s id (some new)) count := by
  intro i
  by_cases hi : i = id
  · subst hi
    rw [currencyRecord_update_self]
    exact .inr ⟨e, k, he, hpos, hneg, hm⟩
  · exact .inl (currencyRecord_update_of_ne hi new)

/-- An effect on one currency followed by one on another. -/
theorem Effect.trans_update {k : ℤ} {s' : CurrencyStorage} {new : PlayerCurrency}
    (h : Effect types rates s s' count) (he : types.lookupEntry id = some e)
    (hsame : currencyRecord s' id = currencyRecord s id)
    (hpos : 0 < count → 0 < k) (hneg : count < 0 → k < 0)
    (hm : Moves (getCurrencyWeekCap types rates e) (getCurrencyTotalCap types e)
      (currencyRecord s id) new k) :
    Effect types rates s (Function.update s' id (some new)) count := by
  intro i
  by_cases hi : i = id
  · subst hi
    rw [currencyRecord_update_self]
    exact .inr ⟨e, k, he, hpos, hneg, hm⟩
  · rw [currencyRecord_update_of_ne hi new]
    exact h i

/-- Two currencies with room for the same amounts move by the same amount. -/
theorem moved_eq_of_room {wc tc wc' tc' : ℕ} {c c' : PlayerCurrency} (hok : CurrencyOk tc c)
    (hok' : CurrencyOk tc' c') (hw : wc ≠ 0 → c.weekCount ≤ wc) (hw' : wc' ≠ 0 → c'.weekCount ≤ wc')
    (h : ∀ n : ℕ, (n : ℤ) ≤ |count| → (Room wc tc c count n ↔ Room wc' tc' c' count n)) :
    moved wc tc c count = moved wc' tc' c' count := by
  refine le_antisymm ?_ ?_
  · rw [← room_iff_le_moved hok' hw' moved_le_abs, ← h _ moved_le_abs,
      room_iff_le_moved hok hw moved_le_abs]
  · rw [← room_iff_le_moved hok hw moved_le_abs, h _ moved_le_abs,
      room_iff_le_moved hok' hw' moved_le_abs]

theorem multiplied_false : multiplied rates id count false = rates.gain id count :=
  rfl

/-- The call of `ModifyCurrency` for the conquest points moves them by the amount that the
meta currency has moved. -/
theorem conquest_moves (new : PlayerCurrency) {k : ℤ} (hk : k ≠ 0) (hid : e.id ≠ conquestPoints)
    (hok : CurrencyOk (getCurrencyTotalCap types e) (currencyRecord s e.id))
    (hokc : CurrencyOk (getCurrencyTotalCap types types.conquest) (currencyRecord s conquestPoints))
    (hsteady : SteadyEntry types rates s e k)
    (hmeta : SteadyMeta types rates s e (cappedCount (getCurrencyWeekCap types rates e)
      (getCurrencyTotalCap types e) k))
    (h0 : moved (getCurrencyWeekCap types rates e) (getCurrencyTotalCap types e)
      (currencyRecord s e.id) k ≠ 0) :
    ∃ newc, (modifyCurrencyOnce types rates (Function.update s e.id (some new)) conquestPoints
        (cappedCount (getCurrencyWeekCap types rates e) (getCurrencyTotalCap types e) k) false).1 =
          Function.update (Function.update s e.id (some new)) conquestPoints (some newc) ∧
      Moves (getCurrencyWeekCap types rates types.conquest)
        (getCurrencyTotalCap types types.conquest) (currencyRecord s conquestPoints) newc
        (cappedCount (getCurrencyWeekCap types rates e) (getCurrencyTotalCap types e) k) ∧
      moved (getCurrencyWeekCap types rates types.conquest)
        (getCurrencyTotalCap types types.conquest) (currencyRecord s conquestPoints)
        (cappedCount (getCurrencyWeekCap types rates e) (getCurrencyTotalCap types e) k) =
      moved (getCurrencyWeekCap types rates e) (getCurrencyTotalCap types e)
        (currencyRecord s e.id) k := by
  have hconq : types.conquest.id = conquestPoints := types.id_eq _ _ types.conquest_mem
  have hcapmoved := moved_cappedCount (c := currencyRecord s e.id) hsteady.weekCap_lt
    hsteady.totalCap_lt hk
  have hcap0 : cappedCount (getCurrencyWeekCap types rates e) (getCurrencyTotalCap types e) k ≠ 0 := by
    rcases lt_or_gt_of_ne hk with hneg | hpos
    · rw [cappedCount_of_neg hsteady.weekCap_lt hsteady.totalCap_lt hneg]
      exact hk
    · exact (cappedCount_pos hsteady.weekCap_lt hsteady.totalCap_lt hpos).ne'
  generalize hcap : cappedCount (getCurrencyWeekCap types rates e) (getCurrencyTotalCap types e) k =
    k1 at *
  rcases hmeta with hfull | ⟨hgain, hsteadyc, hroom⟩
  · have hone : ((1 : ℕ) : ℤ) ≤ |k1| := by
      have := abs_pos.2 hcap0
      omega
    rw [HasRoom, room_iff_le_moved hok hsteady.week_le hone] at hfull
    omega
  · unfold SteadyEntry at hsteadyc
    simp only [HasRoom, hconq] at hroom hsteadyc
    have hsame : currencyRecord (Function.update s e.id (some new)) conquestPoints =
        currencyRecord s conquestPoints := currencyRecord_update_of_ne hid.symm new
    obtain ⟨newc, heq, hmoves, -⟩ := modifyCurrencyOnce_spec
      (s := Function.update s e.id (some new)) types.conquest_mem hcap0
      (by rwa [hsame]) (by rwa [hsame, multiplied_false, hgain])
    rw [hsame, multiplied_false, hgain] at hmoves
    refine ⟨newc, heq, hmoves, ?_⟩
    rw [← hcapmoved]
    exact (moved_eq_of_room hok hokc hsteady.week_le hsteadyc.week_le hroom).symm

theorem modifyCurrency_effect {t : TrackedCurrencies} (ht : TrackedOk types t)
    (hs : Steady types t.storage (.modify rates id count ignoreMultipliers)) :
    let s' := modifyCurrency types rates t.storage id count ignoreMultipliers
    Effect types rates t.storage s' count ∧
      ∀ e, types.lookupEntry id = some e → e.category = categoryMetaConquest →
        ((currencyRecord s' conquestPoints).totalCount : ℤ) -
            (currencyRecord t.storage conquestPoints).totalCount =
          (currencyRecord s' id).totalCount - (currencyRecord t.storage id).totalCount := by
  by_cases hc : count = 0
  · simp [modifyCurrency, modifyCurrencyOnce, hc, Effect.refl]
  cases he : types.lookupEntry id with
  | none => simp [modifyCurrency, modifyCurrencyOnce, he, Effect.refl]
  | some e =>
    obtain ⟨hsteady, hmeta⟩ := hs e he hc
    obtain rfl := types.id_eq id e he
    obtain ⟨new, heq, hmoves, hnext⟩ := modifyCurrencyOnce_spec he hc (ht.ok _ _ he) hsteady
    have heffect := Effect.update he (fun h => multiplied_pos h)
      (fun h => multiplied_neg h) hmoves
    by_cases hcat : e.category = categoryMetaConquest
    · have hid : e.id ≠ conquestPoints := by
        intro h
        rw [h, types.conquest_mem] at he
        obtain rfl := some.inj he
        exact types.conquest_category hcat
      by_cases h0 : moved (getCurrencyWeekCap types rates e) (getCurrencyTotalCap types e)
          (currencyRecord t.storage e.id) (multiplied rates e.id count ignoreMultipliers) = 0
      · rw [if_neg (fun h => h.1 h0)] at hnext
        simp only [modifyCurrency]
        rw [← Prod.mk.eta (p := modifyCurrencyOnce types rates t.storage e.id count
          ignoreMultipliers), heq, hnext]
        refine ⟨heffect, fun _ _ _ => ?_⟩
        rw [currencyRecord_update_self, currencyRecord_update_of_ne hid.symm]
        rcases lt_or_gt_of_ne hc with hneg | hpos
        · have := hmoves.loss (multiplied_neg hneg)
          omega
        · have := hmoves.gain (multiplied_pos hpos)
          omega
      · rw [if_pos ⟨h0, hcat⟩] at hnext
        obtain ⟨newc, heqc, hmovesc, heqm⟩ := conquest_moves new
          (multiplied_ne_zero hc) hid (ht.ok _ _ he) (ht.ok _ _ types.conquest_mem) hsteady
          (hmeta hcat) h0
        have hcapneg : multiplied rates e.id count ignoreMultipliers < 0 → _ := fun h =>
          (cappedCount_of_neg hsteady.weekCap_lt hsteady.totalCap_lt h).trans_lt h
        have hcappos : 0 < multiplied rates e.id count ignoreMultipliers → _ := fun h =>
          cappedCount_pos hsteady.weekCap_lt hsteady.totalCap_lt h
        simp only [modifyCurrency]
        rw [← Prod.mk.eta (p := modifyCurrencyOnce types rates t.storage e.id count
          ignoreMultipliers), heq, hnext]
        simp only [heqc]
        refine ⟨heffect.trans_update types.conquest_mem
          (currencyRecord_update_of_ne hid.symm new) (fun h => hcappos (multiplied_pos h))
          (fun h => hcapneg (multiplied_neg h)) hmovesc, fun _ _ _ => ?_⟩
        rw [currencyRecord_update_self, currencyRecord_update_of_ne hid,
          currencyRecord_update_self]
        rcases lt_or_gt_of_ne hc with hneg | hpos
        · have h1 := hmoves.loss (multiplied_neg hneg)
          have h2 := hmovesc.loss (hcapneg (multiplied_neg hneg))
          omega
        · have h1 := hmoves.gain (multiplied_pos hpos)
          have h2 := hmovesc.gain (hcappos (multiplied_pos hpos))
          omega
    · rw [if_neg (fun h => hcat h.2)] at hnext
      simp only [modifyCurrency]
      rw [← Prod.mk.eta (p := modifyCurrencyOnce types rates t.storage e.id count ignoreMultipliers),
        heq, hnext]
      refine ⟨heffect, fun e' he' hcat' => ?_⟩
      obtain rfl := some.inj he'
      exact absurd hcat' hcat

theorem currencyRecord_reset (s : CurrencyStorage) (i : ℕ) :
    (currencyRecord (resetCurrencyWeekCap s) i).totalCount = (currencyRecord s i).totalCount ∧
      (currencyRecord (resetCurrencyWeekCap s) i).weekCount = 0 := by
  unfold currencyRecord resetCurrencyWeekCap
  cases s i <;> simp

/-- A steady call keeps the records in order and respects the caps. -/
theorem trackedStep_capped (t : TrackedCurrencies) (r : CurrencyRequest) (ht : TrackedOk types t)
    (hs : Steady types t.storage r) :
    TrackedOk types (trackedStep types t r) ∧ CapsRespected types t r := by
  cases r with
  | resetWeek =>
    have hok : TrackedOk types (trackedStep types t .resetWeek) := by
      refine ⟨fun i e he => ?_, fun _ _ _ _ => Nat.zero_le _, fun _ _ _ _ => Nat.zero_le _⟩
      obtain ⟨h1, h2⟩ := currencyRecord_reset t.storage i
      obtain ⟨htot, -, hle⟩ := ht.ok i e he
      exact ⟨by simpa [trackedStep, currencyStep, h1] using htot,
        by simp [trackedStep, currencyStep, h2],
        by simpa [trackedStep, currencyStep, h1] using hle⟩
    refine ⟨hok, fun i e he h0 => (hok.ok i e he).total_le h0, ?_, ?_, hok.cap, ?_⟩
    · rintro rates id count ignore ⟨⟩
    · rintro rates id count ignore ⟨⟩
    · rintro rates id count ignore e ⟨⟩
  | modify rates id count ignore =>
    obtain ⟨heffect, hconq⟩ := modifyCurrency_effect ht hs
    have hok : TrackedOk types (trackedStep types t (.modify rates id count ignore)) := by
      refine ⟨fun i e he => ?_, fun i e he hcap => ?_, fun i e he hcap => ?_⟩
      · rcases heffect i with hsame | ⟨e', k, he', -, -, hm⟩
        · simpa only [trackedStep, currencyStep, hsame] using ht.ok i e he
        · obtain rfl := some.inj (he.symm.trans he')
          exact hm.ok
      · have hweek := ht.week i e he hcap
        simp only [trackedStep, currencyStep]
        rcases heffect i with hsame | ⟨e', k, he', -, -, hm⟩
        · rw [hsame]
          omega
        · obtain rfl := some.inj (he.symm.trans he')
          have := hm.week (hcap.ne_zero rates)
          omega
      · have hweek := ht.week i e he hcap
        have hold := ht.cap i e he hcap
        simp only [trackedStep, currencyStep]
        rcases heffect i with hsame | ⟨e', k, he', -, -, hm⟩
        · rw [hsame]
          omega
        · obtain rfl := some.inj (he.symm.trans he')
          have := hm.week (hcap.ne_zero rates)
          have hforce : weekCapInForce types rates i = getCurrencyWeekCap types rates e := by
            rw [weekCapInForce, he]
          omega
    refine ⟨hok, fun i e he h0 => (hok.ok i e he).total_le h0, ?_, ?_, hok.cap, ?_⟩
    · rintro _ _ _ _ ⟨⟩ hpos i
      simp only [trackedStep, currencyStep]
      rcases heffect i with hsame | ⟨e', k, -, hk, -, hm⟩
      · rw [hsame]
      · rw [hm.gain (hk hpos)]
        exact Nat.le_add_right _ _
    · rintro _ _ _ _ ⟨⟩ hneg i
      simp only [trackedStep, currencyStep]
      rcases heffect i with hsame | ⟨e', k, -, -, hk, hm⟩
      · rw [hsame]
      · rw [← hm.loss (hk hneg)]
        exact Nat.le_add_right _ _
    · rintro _ _ _ _ e ⟨⟩ he hcat
      exact hconq e he hcat

/-- Every run of steady calls, from records in order, respects the caps at every call. -/
theorem currency_run_capped {rs : List CurrencyRequest}
    (hs : ∀ i e, types.lookupEntry i = some e →
      CurrencyOk (getCurrencyTotalCap types e) (currencyRecord s i))
    (hrun : Along (trackedStep types) (fun t r => Steady types t.storage r)
      ⟨s, fun _ => 0, fun _ => 0⟩ rs) :
    Along (trackedStep types) (CapsRespected types) ⟨s, fun _ => 0, fun _ => 0⟩ rs :=
  Along.of_invariant trackedStep_capped
    ⟨hs, fun _ _ _ _ => Nat.zero_le _, fun _ _ _ _ => Nat.zero_le _⟩ hrun

/-- The four conquest and honor currencies, the conquest ones with the caps of the ratings. -/
def pvpTypes : CurrencyTypes where
  lookupEntry i :=
    if i = 390 then some ⟨390, 2, 0, 0⟩
    else if i = 392 then some ⟨392, 2, 400000, 0⟩
    else if i = 483 then some ⟨483, 89, 0, 0⟩
    else if i = 484 then some ⟨484, 89, 0, 0⟩
    else none
  maxHonorPoints := 400000
  maxJusticePoints := 400000
  id_eq i e h := by
    split_ifs at h with h₁ h₂ h₃ h₄ <;> simp_all [← some.inj h]
  conquest := ⟨390, 2, 0, 0⟩
  conquest_mem := rfl
  conquest_category := by decide

/-- A rating with the given cap and no multiplier. -/
def plainRates (arenaCap : ℕ) (ha : 0 < arenaCap ∧ arenaCap < 5000) : CurrencyRates where
  arenaCap := arenaCap
  gain _ count := count
  arenaCap_pos := ha.1
  arenaCap_lt := ha.2
  gain_pos _ _ h := h
  gain_neg _ _ h := h

theorem arenaCap_ok : 0 < 1350 ∧ 1350 < 5000 := by
  decide

/-- A gain of rated battlegrounds, a reset and a gain of honor. -/
def pvpRun : List CurrencyRequest :=
  [.modify (plainRates 1350 arenaCap_ok) 484 1000 false, .resetWeek,
    .modify (plainRates 1350 arenaCap_ok) 392 5000 true]

theorem emptyStorage_ok (i : ℕ) (e : CurrencyTypesEntry) (_ : types.lookupEntry i = some e) :
    CurrencyOk (getCurrencyTotalCap types e) (currencyRecord (fun _ => none) i) :=
  ⟨by simp [currencyRecord], by simp [currencyRecord], fun _ => Nat.zero_le _⟩

theorem pvpRun_steady : Along (trackedStep pvpTypes) (fun t r => Steady pvpTypes t.storage r)
    ⟨fun _ => none, fun _ => 0, fun _ => 0⟩ pvpRun := by
  refine ⟨?_, trivial, ?_, trivial⟩
  · intro e he _
    obtain rfl : ⟨484, 89, 0, 0⟩ = e := some.inj he
    refine ⟨⟨by decide +kernel, by decide +kernel, by decide +kernel, by decide +kernel,
      by decide +kernel, by decide +kernel, by decide +kernel⟩, fun _ => .inr ⟨rfl, ?_, ?_⟩⟩
    · exact ⟨by decide +kernel, by decide +kernel, by decide +kernel, by decide +kernel,
        by decide +kernel, by decide +kernel, by decide +kernel⟩
    · intro n _
      exact Iff.rfl
  · intro e he _
    obtain rfl : ⟨392, 2, 400000, 0⟩ = e := some.inj he
    refine ⟨⟨by decide +kernel, by decide +kernel, by decide +kernel, by decide +kernel,
      by decide +kernel, by decide +kernel, by decide +kernel⟩, fun h => absurd h (by decide)⟩

theorem currency_run_capped_pvpRun :
    Along (trackedStep pvpTypes) (fun t r => Steady pvpTypes t.storage r)
      ⟨fun _ => none, fun _ => 0, fun _ => 0⟩ pvpRun ∧
    Along (trackedStep pvpTypes) (CapsRespected pvpTypes)
      ⟨fun _ => none, fun _ => 0, fun _ => 0⟩ pvpRun :=
  ⟨pvpRun_steady, currency_run_capped emptyStorage_ok pvpRun_steady⟩

/-- After a full week with the rating 2000 the player comes back with a rating below 1500 : the
next point of the arenas costs the difference of the two caps. -/
theorem modifyCurrency_lowered_cap :
    ¬Along (trackedStep pvpTypes) (CapsRespected pvpTypes)
      ⟨fun _ => none, fun _ => 0, fun _ => 0⟩
      [.modify (plainRates 2729 (by decide)) 483 272900 true,
        .modify (plainRates 1350 (by decide)) 483 1 true] := by
  rintro ⟨-, hlast, -⟩
  exact absurd (hlast.gain _ _ _ _ rfl (by decide) 483) (by decide +kernel)

end MistyWorld
