import MistyWorld.Conditions
import Mathlib.Data.Nat.Bitwise
import Mathlib.Tactic.IntervalCases

/-!
# The mask of a list of conditions

A condition type that asks for a unit, a player, a creature or an object of given types is
`about` these kinds of objects, and any condition that is negative or about a kind `admits` it.
The mask of a condition that was loaded has the bits of the kinds it admits (`exists_mask`).

Both loops over lists are evaluations of the same groups and references
(`ElseGroups.exists_eval`). The list is met when the conditions on one way through it are
(`isObjectMeetToConditions_iff`) and its mask has the kinds that all conditions on one way admit
(`exists_searcherTypeMask`). A condition about the first object that is met admits its kind
(`admits_of_meets`), but the masks take no heed of the condition target : a condition about the
second object is met by that, and takes the kinds it does not admit off the mask for the first.
`findsObject_iff` says when an object that meets the list is found.
-/

open Keyed Option List ElseGroups Word

namespace MistyWorld

variable {O : Type*} [DecidableEq O] {w : World O} {s : ConditionSourceInfo O} {db : Database}

/-! ## One condition -/

theorem testBit_gridMapTypeMaskAll (k : GridMapType) : gridMapTypeMaskAll.testBit k.bit = true := by
  cases k <;> rfl

theorem GridMapType.testBit_mask (k j : GridMapType) : k.mask.testBit j.bit = decide (k = j) := by
  cases k <;> cases j <;> rfl

namespace Condition

variable {c : Condition} {object : O} {k : GridMapType}

/-- The kinds of objects the type of the condition speaks about. -/
def about (c : Condition) (k : GridMapType) : Bool :=
  match c.conditionType with
  | .aura | .class | .race | .level | .relationTo | .reactionTo | .alive | .hpVal | .hpPct
  | .unitState => k.isUnit
  | .item | .itemEquipped | .reputationRank | .achievement | .team | .gender | .skill
  | .questRewarded | .questTaken | .questComplete | .questNone | .spell | .drunkenState
  | .title => k.isPlayer
  | .creatureType => k.isCreature
  | .objectEntry => k.typeId == c.conditionValue1
  | .typeMask => k.isType c.conditionValue1
  | .none | .zoneId | .worldState | .activeEvent | .instanceInfo | .spawnMask | .mapId | .areaId
  | .phaseMask | .nearCreature | .nearGameObject | .distanceTo | .max => true

/-- The condition can be met by an object of the kind. -/
def admits (c : Condition) (k : GridMapType) : Bool :=
  c.negativeCondition || c.about k

theorem getMaxAvailableConditionTargets_le (c : Condition) :
    c.getMaxAvailableConditionTargets ≤ 2 := by
  unfold getMaxAvailableConditionTargets
  split <;> omega

theorem exists_compareValues {T : Type*} [LinearOrder T] {type : ℕ} (h : type < 5) (a b : T) :
    ∃ met, compareValues type a b = .ok met := by
  interval_cases type <;> exact ⟨_, rfl⟩

omit [DecidableEq O] in
theorem exists_target {i : ℕ} (h : i < 3) (s : ConditionSourceInfo O) :
    ∃ object, s.target i = .ok object := by
  interval_cases i <;> exact ⟨_, rfl⟩

/-- A condition with valid values is evaluated without a failed assertion. -/
theorem exists_condMeets (object : O) (h : ConditionMgr.valuesValid db c = true) :
    ∃ met, c.condMeets w s object = .ok met := by
  have hmax := c.getMaxAvailableConditionTargets_le
  unfold ConditionMgr.valuesValid at h
  unfold condMeets
  cases htype : c.conditionType with
  | item =>
    simp only [htype, Bool.and_eq_true, bne_iff_ne, ne_eq] at h
    simp only [if_neg h.2]
    split_ifs <;> exact ⟨_, rfl⟩
  | instanceInfo =>
    simp only
    split <;> exact ⟨_, rfl⟩
  | level | hpVal =>
    simp only [htype, decide_eq_true_eq] at h
    simp only
    split_ifs
    · exact exists_compareValues h _ _
    · exact ⟨_, rfl⟩
  | hpPct =>
    simp only [htype, Bool.and_eq_true, decide_eq_true_eq] at h
    simp only
    split_ifs
    · exact exists_compareValues h.2 _ _
    · exact ⟨_, rfl⟩
  | relationTo | reactionTo =>
    simp only [htype, Bool.and_eq_true, decide_eq_true_eq] at h
    obtain ⟨toObject, htarget⟩ := exists_target (i := c.conditionValue1) (by omega) s
    simp only [htarget]
    cases toObject <;> exact ⟨_, rfl⟩
  | distanceTo =>
    simp only [htype, Bool.and_eq_true, decide_eq_true_eq] at h
    obtain ⟨toObject, htarget⟩ := exists_target (i := c.conditionValue1) (by omega) s
    simp only [htarget]
    cases toObject with
    | none => exact ⟨_, rfl⟩
    | some toObject => exact exists_compareValues h.2 _ _
  | _ => exact ⟨_, rfl⟩

theorem exists_meets (h : ConditionMgr.isConditionTypeValid db c = true) :
    ∃ met, c.meets w s = .ok met := by
  have hmax := c.getMaxAvailableConditionTargets_le
  simp only [ConditionMgr.isConditionTypeValid, Bool.and_eq_true, decide_eq_true_eq] at h
  obtain ⟨⟨-, htarget⟩, hvalues⟩ := h
  obtain ⟨object, hobject⟩ := exists_target (i := c.conditionTarget) (by omega) s
  rw [meets, if_neg (show ¬3 ≤ c.conditionTarget by omega), hobject]
  cases object with
  | none => exact ⟨_, rfl⟩
  | some object =>
    obtain ⟨met, hmet⟩ := exists_condMeets (w := w) (s := s) object hvalues
    exact ⟨(met != c.negativeCondition) && w.onConditionCheck c s, by simp only [hmet, Except.map]⟩

theorem and_two_pow_ne_zero {v i : ℕ} : v &&& 2 ^ i ≠ 0 ↔ v.testBit i = true := by
  rw [Nat.and_two_pow]
  cases v.testBit i <;> simp

theorem and_or_ne_zero {v a b : ℕ} : v &&& (a ||| b) ≠ 0 ↔ v &&& a ≠ 0 ∨ v &&& b ≠ 0 := by
  rw [Nat.and_or_distrib_left, Ne, Nat.or_eq_zero_iff, not_and_or]

theorem testBit_eq_false {v i : ℕ} (h : v &&& ConditionMgr.otherTypes = 0)
    (hi : ConditionMgr.otherTypes.testBit i = true) : v.testBit i = false := by
  have hbit := congrArg (Nat.testBit · i) h
  simpa [Nat.testBit_and, hi] using hbit

theorem testBit_ite (b : Bool) (mask i : ℕ) :
    (if b = true then mask else 0).testBit i = (b && mask.testBit i) := by
  cases b <;> simp

/-- The type mask of an object shares a bit with a mask of checked types when the mask has the
bit of its class, or that of units for a player. -/
theorem isType_iff {v : ℕ} (h : v &&& ConditionMgr.otherTypes = 0) (k : GridMapType) :
    k.isType v = match k with
      | .creature => v.testBit 3
      | .player => v.testBit 3 || v.testBit 4
      | .gameObject => v.testBit 5
      | .corpse => v.testBit 7
      | .dynamicObject | .areaTrigger => false := by
  have hlow : ∀ i < 16, (toU16 v).testBit i = v.testBit i := by
    intro i hi
    have : toU16 v = v % 2 ^ 16 := by
      unfold toU16
      omega
    rw [this, Nat.testBit_mod_two_pow, decide_eq_true hi, Bool.true_and]
  have h0 := testBit_eq_false h (i := 0) rfl
  have h6 := testBit_eq_false h (i := 6) rfl
  have h8 := testBit_eq_false h (i := 8) rfl
  rw [Bool.eq_iff_iff, GridMapType.isType, bne_iff_ne]
  cases k
  all_goals
    simp only [GridMapType.objectType, show typeMaskObject = 2 ^ 0 from rfl,
      show typeMaskUnit = 2 ^ 3 from rfl, show typeMaskPlayer = 2 ^ 4 from rfl,
      show typeMaskGameObject = 2 ^ 5 from rfl, show typeMaskDynamicObject = 2 ^ 6 from rfl,
      show typeMaskCorpse = 2 ^ 7 from rfl, show typeMaskAreaTrigger = 2 ^ 8 from rfl,
      and_or_ne_zero, and_two_pow_ne_zero, hlow 0 (by omega), hlow 3 (by omega),
      hlow 4 (by omega), hlow 5 (by omega), hlow 6 (by omega), hlow 7 (by omega),
      hlow 8 (by omega), h0, h6, h8, Bool.or_eq_true, Bool.false_eq_true, false_or]

/-- The mask of a valid condition has the kinds the condition admits. -/
theorem exists_mask (h : ConditionMgr.isConditionTypeValid db c = true) :
    ∃ mask, c.getSearcherTypeMaskForCondition = .ok mask ∧
      ∀ k : GridMapType, mask.testBit k.bit = c.admits k := by
  simp only [ConditionMgr.isConditionTypeValid, Bool.and_eq_true, decide_eq_true_eq] at h
  obtain ⟨⟨htypes, htarget⟩, hvalues⟩ := h
  unfold getSearcherTypeMaskForCondition
  cases hneg : c.negativeCondition with
  | true =>
    refine ⟨_, rfl, fun k => ?_⟩
    simp only [admits, hneg, Bool.true_or]
    cases k <;> rfl
  | false =>
    simp only [admits, hneg, Bool.false_or, about]
    unfold ConditionMgr.valuesValid at hvalues
    cases htype : c.conditionType with
    | objectEntry =>
      simp only [htype] at hvalues
      generalize c.conditionValue1 = value1 at hvalues ⊢
      split at hvalues
      · exact ⟨_, rfl, fun k => by cases k <;> rfl⟩
      · exact ⟨_, rfl, fun k => by cases k <;> rfl⟩
      · exact ⟨_, rfl, fun k => by cases k <;> rfl⟩
      · exact ⟨_, rfl, fun k => by cases k <;> rfl⟩
      · cases hvalues
    | typeMask =>
      simp only [htype, Bool.and_eq_true, beq_iff_eq] at hvalues
      refine ⟨_, rfl, fun k => ?_⟩
      simp only [isType_iff hvalues.2, show typeMaskUnit = 2 ^ 3 from rfl,
        show typeMaskPlayer = 2 ^ 4 from rfl, show typeMaskGameObject = 2 ^ 5 from rfl,
        show typeMaskCorpse = 2 ^ 7 from rfl, show typeMaskAreaTrigger = 2 ^ 8 from rfl,
        and_two_pow_ne_zero, Nat.testBit_or, testBit_ite,
        testBit_eq_false hvalues.2 (i := 8) rfl, Bool.false_and, Bool.or_false,
        GridMapType.testBit_mask]
      cases k <;> simp
    | none | max => simp [htype] at htypes
    | _ => exact ⟨_, rfl, fun k => by cases k <;> rfl⟩

/-- A type that is met by an object is about objects of its kind : the two switches agree. -/
theorem about_of_condMeets (h : c.condMeets w s object = .ok true) :
    c.about (w.gridType object) = true := by
  unfold condMeets at h
  unfold about
  cases htype : c.conditionType with
  | item | level | hpVal | hpPct =>
    simp only [htype] at h ⊢
    split_ifs at h with hkind
    · exact hkind
    · cases h
  | relationTo | reactionTo =>
    simp only [htype] at h ⊢
    split at h
    · cases h
    · cases h
    · simp only [Except.ok.injEq, Bool.and_eq_true] at h
      exact h.1.2
  | none | zoneId | worldState | activeEvent | instanceInfo | spawnMask | mapId | areaId
  | phaseMask | nearCreature | nearGameObject | distanceTo | max => rfl
  | _ =>
    simp only [htype, Except.ok.injEq, Bool.and_eq_true] at h ⊢
    first | exact h | exact h.1 | exact h.1.1

/-- A condition about the first object that is met admits the kind of this object. -/
theorem admits_of_meets (htarget : c.conditionTarget = 0) (hobject : s.target0 = some object)
    (h : c.meets w s = .ok true) : c.admits (w.gridType object) = true := by
  have hmeets : (c.condMeets w s object).map (fun met => (met != c.negativeCondition) &&
      w.onConditionCheck c s) = .ok true := by
    rw [← h, meets, if_neg (by omega), htarget]
    simp only [ConditionSourceInfo.target, hobject]
  rw [admits, Bool.or_eq_true]
  cases hneg : c.negativeCondition with
  | true => exact .inl rfl
  | false =>
    refine .inr (about_of_condMeets (s := s) ?_)
    cases hmet : c.condMeets w s object with
    | error e =>
      rw [hmet] at hmeets
      cases hmeets
    | ok met =>
      rw [hmet, hneg] at hmeets
      simp only [Except.map, Bool.bne_false, Except.ok.injEq, Bool.and_eq_true] at hmeets
      rw [hmeets.1]

/-- The reference template an entry stands for. -/
def reference? (c : Condition) : Option ℕ :=
  if c.referenceId = 0 then none else some c.referenceId

end Condition

/-! ## Loading -/

namespace ConditionMgr

variable {mgr : ConditionMgr}

/-- A condition that was kept. -/
def Has (mgr : ConditionMgr) (c : Condition) : Prop :=
  c ∈ mgr.loaded ∨ ∃ id conditions, mgr.reference id = some conditions ∧ c ∈ conditions

/-- References lead to reference templates. -/
def Resolvable (mgr : ConditionMgr) : Prop :=
  ∀ c, mgr.Has c → c.referenceId ≠ 0 → ∃ conditions, mgr.reference c.referenceId = some conditions

/-- No reference template refers to itself, through any others. -/
def Acyclic (mgr : ConditionMgr) : Prop :=
  ∃ rank : ℕ → ℕ, ∀ id conditions, mgr.reference id = some conditions →
    ∀ c ∈ conditions, c.referenceId ≠ 0 → rank c.referenceId < rank id

/-- What loading ensures : conditions are checked, and a reference template has entries. -/
structure Checked (db : Database) (mgr : ConditionMgr) : Prop where
  valid : ∀ c, mgr.Has c → c.referenceId = 0 → isConditionTypeValid db c = true
  entries : ∀ id conditions, mgr.reference id = some conditions → conditions ≠ []

theorem reference_addReference (mgr : ConditionMgr) (id : ℕ) (c : Condition) (j : ℕ) :
    (mgr.addReference id c).reference j =
      if j = id then some ((mgr.reference id).getD [] ++ [c]) else mgr.reference j := by
  unfold addReference reference
  cases hfind : find Prod.fst mgr.conditionReferenceStore id with
  | none =>
    simp only [map_none]
    split_ifs with hj
    · subst hj
      rw [find_cons_self mgr.conditionReferenceStore (j, [c])]
      rfl
    · rw [find_cons_of_ne (fun h => hj h.symm)]
  | some e =>
    obtain ⟨-, hkey⟩ := mem_of_find hfind
    simp only [map_some, getD_some]
    split_ifs with hj
    · subst hj
      rw [find_replace_self (x := (j, e.2 ++ [c])) hfind]
      rfl
    · rw [find_replace_of_ne]
      exact hj

theorem Checked.addReference (h : mgr.Checked db) (id : ℕ) {c : Condition}
    (hc : c.referenceId = 0 → isConditionTypeValid db c = true) :
    (mgr.addReference id c).Checked db where
  valid d hd := by
    rcases hd with hd | ⟨j, conditions, hj, hd⟩
    · exact h.valid d (.inl hd)
    · rw [reference_addReference] at hj
      split_ifs at hj with heq
      · obtain rfl := some.inj hj
        rcases mem_append.1 hd with hd | hd
        · cases hold : mgr.reference id with
          | none => simp [hold] at hd
          | some old =>
            rw [hold, getD_some] at hd
            exact h.valid d (.inr ⟨id, old, hold, hd⟩)
        · obtain rfl := mem_singleton.1 hd
          exact hc
      · exact h.valid d (.inr ⟨j, conditions, hj, hd⟩)
  entries j conditions hj := by
    rw [reference_addReference] at hj
    split_ifs at hj
    · obtain rfl := some.inj hj
      simp
    · exact h.entries j conditions hj

theorem Checked.addCondition (h : mgr.Checked db) {c : Condition}
    (hc : c.referenceId = 0 → isConditionTypeValid db c = true) :
    (addCondition db mgr c).Checked db := by
  unfold ConditionMgr.addCondition
  split_ifs
  · exact h
  · exact h
  · exact h
  · refine ⟨fun d hd => ?_, h.entries⟩
    rcases hd with hd | hd
    · rcases mem_append.1 hd with hd | hd
      · exact h.valid d (.inl hd)
      · obtain rfl := mem_singleton.1 hd
        exact hc
    · exact h.valid d (.inr hd)

/-- The check of the source changes nothing but the source group. -/
theorem eq_of_isSourceTypeValid {c d : Condition} (h : isSourceTypeValid db c = some d) :
    ∃ group, d = { c with sourceGroup := group } := by
  have hkeep : ∀ valid : Bool, (if valid then some c else none) = some d →
      ∃ group, d = { c with sourceGroup := group } := by
    intro valid hd
    split_ifs at hd
    exact ⟨c.sourceGroup, (some.inj hd).symm⟩
  unfold isSourceTypeValid at h
  simp only at h
  split at h
  case h_15 =>
    split_ifs at h
    exact ⟨_, (some.inj h).symm⟩
  all_goals first | exact hkeep _ h | cases h
  all_goals exact ⟨c.sourceGroup, rfl⟩

theorem Checked.loadRow (h : mgr.Checked db) (row : ConditionRow) :
    (loadRow db mgr row).Checked db := by
  unfold ConditionMgr.loadRow
  simp only
  have href : row.conditionTypeOrReference < 0 → (readRow row).referenceId = 0 →
      isConditionTypeValid db (readRow row) = true := by
    intro hlt hzero
    simp only [readRow, if_pos hlt] at hzero
    omega
  split_ifs with hself hinvalid hsource htype
  · exact h
  · exact h
  · refine h.addReference _ fun hzero => ?_
    by_cases hlt : row.conditionTypeOrReference < 0
    · exact href hlt hzero
    · simpa [not_lt.1 hlt] using hinvalid
  · have hvalid : isConditionTypeValid db (readRow row) = true := by simpa [htype] using hinvalid
    cases hchecked : isSourceTypeValid db (readRow row) with
    | none => exact h
    | some c =>
      obtain ⟨group, rfl⟩ := eq_of_isSourceTypeValid hchecked
      exact h.addCondition fun _ => hvalid
  · exact h.addCondition (href (not_le.1 htype))

/-- Every condition that was loaded is checked. -/
theorem checked_loadConditions (db : Database) (rows : List ConditionRow) :
    (loadConditions db rows).Checked db := by
  refine List.foldlRecOn rows (loadRow db) ?_ fun mgr h row _ => h.loadRow row
  refine ⟨fun c hc => ?_, fun id conditions h => by cases h⟩
  rcases hc with hc | ⟨id, conditions, h, -⟩
  · cases hc
  · cases h

/-! ## Lists of conditions -/

/-- Some way through the list has all its conditions in `v` : the conditions of one else group,
where a reference stands for a way through its template. -/
def HasWay (mgr : ConditionMgr) (v : Condition → Prop) (conditions : List Condition) : Prop :=
  Passes Condition.elseGroup Condition.reference? mgr.reference v conditions

/-- The conditions that both loops evaluate alike : checked, with references that are there. -/
structure Ready (db : Database) (mgr : ConditionMgr) (c : Condition) : Prop where
  valid : c.referenceId = 0 → isConditionTypeValid db c = true
  resolve : c.referenceId ≠ 0 → ∃ conditions, mgr.reference c.referenceId = some conditions

variable {c : Condition} {conditions : List Condition}

theorem reference?_eq_none : c.reference? = none ↔ c.referenceId = 0 := by
  unfold Condition.reference?
  split_ifs with h <;> simp [h]

theorem reference?_eq_some {id : ℕ} : c.reference? = some id ↔ id = c.referenceId ∧ id ≠ 0 := by
  unfold Condition.reference?
  split_ifs with h
  · simp only [false_iff, not_and, not_not]
    exact fun hid => hid.trans h
  · simp only [some.injEq]
    exact ⟨fun hid => ⟨hid.symm, hid ▸ h⟩, fun hid => hid.1.symm⟩

theorem Ready.isLoaded (h : Ready db mgr c) : c.isLoaded = true := by
  by_cases href : c.referenceId = 0
  · have hvalid := h.valid href
    simp only [isConditionTypeValid, Bool.and_eq_true] at hvalid
    simp [Condition.isLoaded, hvalid.1.1.1]
  · simp [Condition.isLoaded, href]

theorem Checked.ready (h : mgr.Checked db) (hres : mgr.Resolvable) (hc : mgr.Has c) :
    Ready db mgr c :=
  ⟨h.valid c hc, hres c hc⟩

/-- The reference templates in use. -/
def knownReferences (mgr : ConditionMgr) : Finset ℕ :=
  (mgr.conditionReferenceStore.map Prod.fst).toFinset

theorem card_knownReferences_le (mgr : ConditionMgr) :
    mgr.knownReferences.card ≤ mgr.conditionReferenceStore.length := by
  have hle := toFinset_card_le (mgr.conditionReferenceStore.map Prod.fst)
  rwa [length_map] at hle

theorem wellFounded (h : mgr.Checked db) (hres : mgr.Resolvable) {rank : ℕ → ℕ}
    (hrank : ∀ id conditions, mgr.reference id = some conditions →
      ∀ c ∈ conditions, c.referenceId ≠ 0 → rank c.referenceId < rank id) :
    WellFounded Condition.reference? mgr.reference (Ready db mgr) mgr.knownReferences rank where
  resolve c hc id hid := by
    obtain ⟨rfl, hne⟩ := reference?_eq_some.1 hid
    obtain ⟨conditions, href⟩ := hc.resolve hne
    refine ⟨?_, conditions, href⟩
    obtain ⟨e, he, -⟩ := map_eq_some_iff.1 href
    obtain ⟨hmem, hkey⟩ := mem_of_find he
    exact mem_toFinset.2 (hkey ▸ mem_map_of_mem hmem)
  entries id conditions href :=
    ⟨h.entries id conditions href, fun _ hc => h.ready hres (.inr ⟨id, conditions, href, hc⟩)⟩
  descends id conditions href c hc id' hid' := by
    obtain ⟨rfl, hne⟩ := reference?_eq_some.1 hid'
    exact hrank id conditions href c hc hne

theorem foldlM_congr {ε σ : Type*} {f g : σ → Condition → Except ε σ} :
    ∀ {l : List Condition} (b : σ), (∀ c ∈ l, ∀ b, f b c = g b c) → l.foldlM f b = l.foldlM g b
  | [], _, _ => rfl
  | c :: l, b, h => by
    rw [foldlM_cons, foldlM_cons, h c mem_cons_self]
    congr 1
    funext b'
    exact foldlM_congr b' fun d hd => h d (mem_cons_of_mem c hd)

section Mask

/-- The loop of the masks, as a scheme. -/
abbrev maskScheme (mgr : ConditionMgr) (listMask : List Condition → Except Failure ℕ) :
    Scheme Condition ℕ ℕ Failure :=
  scheme Condition.elseGroup Condition.reference? mgr.reference gridMapTypeMaskAll (· &&& ·)
    (· == 0) Condition.getSearcherTypeMaskForCondition listMask

theorem maskScheme_value (hc : Ready db mgr c) (listMask : List Condition → Except Failure ℕ) :
    (mgr.maskScheme listMask).value c = mgr.entryMask listMask c := by
  unfold entryMask
  by_cases href : c.referenceId = 0
  · simp [scheme, reference?_eq_none.2 href, href]
  · obtain ⟨conditions, hconditions⟩ := hc.resolve href
    simp [scheme, reference?_eq_some.2 ⟨rfl, href⟩, href, hconditions]

theorem searcherTypeMaskStep_eq (hc : Ready db mgr c)
    (listMask : List Condition → Except Failure ℕ) (store : List (ℕ × ℕ)) :
    mgr.searcherTypeMaskStep listMask store c = (mgr.maskScheme listMask).step store c := by
  rw [searcherTypeMaskStep, ← maskScheme_value hc, hc.isLoaded, Scheme.step]
  simp only [scheme, Bool.not_true, Bool.false_eq_true, if_false]
  cases find Prod.fst store c.elseGroup with
  | none => rfl
  | some group =>
    by_cases hzero : group.2 = 0
    · simp [hzero]
    · simp [hzero]

theorem testBit_foldl_or (store : List (ℕ × ℕ)) (mask i : ℕ) :
    (store.foldl (fun mask group => mask ||| group.2) mask).testBit i =
      (mask.testBit i || store.any fun group => group.2.testBit i) := by
  induction store generalizing mask with
  | nil => simp
  | cons group store ih =>
    rw [foldl_cons, ih, Nat.testBit_or, any_cons, Bool.or_assoc]

/-- The mask of a list is computed, and has the kinds that the conditions on some way through
the list admit. -/
theorem exists_searcherTypeMask (h : mgr.Checked db) (hres : mgr.Resolvable)
    (hacyclic : mgr.Acyclic) (hl : ∀ c ∈ conditions, mgr.Has c) (k : GridMapType) :
    ∃ mask, mgr.getSearcherTypeMaskForConditionList conditions = .ok mask ∧
      (mask.testBit k.bit = true ↔
        conditions = [] ∨ mgr.HasWay (fun c => c.admits k = true) conditions) := by
  obtain ⟨rank, hrank⟩ := hacyclic
  by_cases hne : conditions = []
  · refine ⟨gridMapTypeMaskAll, ?_, ?_⟩
    · rw [getSearcherTypeMaskForConditionList, searcherTypeMask, if_pos hne]
    · simp only [hne, true_or, testBit_gridMapTypeMaskAll]
  simp only [hne, false_or]
  refine exists_eval gridMapTypeMaskAll (· &&& ·) (· == 0)
    Condition.getSearcherTypeMaskForCondition
    (fun store => store.foldl (fun mask group => mask ||| group.2) 0)
    (wellFounded h hres hrank) (fun listMask => ?_) (fun store => ?_) (fun c hc href => ?_)
    (fun depth l hne hl => ?_) (Nat.lt_succ_of_le mgr.card_knownReferences_le) hne fun c hc => h.ready hres (hl c hc)
  · refine ⟨testBit_gridMapTypeMaskAll k, fun a b => Nat.testBit_and a b _, fun a ha => ?_⟩
    simp only [scheme, beq_iff_eq] at ha
    rw [ha, Nat.zero_testBit]
  · rw [testBit_foldl_or, Nat.zero_testBit, Bool.false_or]
  · obtain ⟨mask, hmask, hbits⟩ := Condition.exists_mask (hc.valid (reference?_eq_none.1 href))
    exact ⟨mask, hmask, by rw [hbits k]⟩
  · rw [searcherTypeMask, if_neg hne]
    congr 1
    exact foldlM_congr [] fun c hc store => searcherTypeMaskStep_eq (hl c hc) _ store

end Mask

section Meets

variable (mgr w s)

/-- The loop over the conditions to meet, as a scheme. -/
abbrev meetScheme (listMeets : List Condition → Except Failure Bool) :
    Scheme Condition ℕ Bool Failure :=
  scheme Condition.elseGroup Condition.reference? mgr.reference true (· && ·) (!·)
    (Condition.meets w s) listMeets

variable {mgr w s}

theorem meetScheme_value (hc : Ready db mgr c) (listMeets : List Condition → Except Failure Bool) :
    (mgr.meetScheme w s listMeets).value c = mgr.entryMeets w s listMeets c := by
  unfold entryMeets
  by_cases href : c.referenceId = 0
  · simp [scheme, reference?_eq_none.2 href, href]
  · obtain ⟨conditions, hconditions⟩ := hc.resolve href
    simp [scheme, reference?_eq_some.2 ⟨rfl, href⟩, href, hconditions]

theorem meetStep_eq (hc : Ready db mgr c) (listMeets : List Condition → Except Failure Bool)
    (store : List (ℕ × Bool)) :
    mgr.meetStep w s listMeets store c = (mgr.meetScheme w s listMeets).step store c := by
  rw [meetStep, ← meetScheme_value hc, hc.isLoaded, Scheme.step]
  simp only [scheme, if_true]
  cases find Prod.fst store c.elseGroup with
  | none => rfl
  | some group => cases hmet : group.2 <;> simp [hmet]

/-- Whether the objects meet a list is computed, and they do when they meet the conditions on
some way through the list. -/
theorem exists_isObjectMeetToConditions (h : mgr.Checked db) (hres : mgr.Resolvable)
    (hacyclic : mgr.Acyclic) (hl : ∀ c ∈ conditions, mgr.Has c) :
    ∃ met, mgr.isObjectMeetToConditions w s conditions = .ok met ∧
      (met = true ↔ conditions = [] ∨ mgr.HasWay (fun c => c.meets w s = .ok true) conditions) := by
  obtain ⟨rank, hrank⟩ := hacyclic
  by_cases hne : conditions = []
  · exact ⟨true, by rw [isObjectMeetToConditions, if_pos hne], by simp [hne]⟩
  simp only [isObjectMeetToConditions, hne, if_false, false_or]
  refine exists_eval (p := id) true (· && ·) (!·) (Condition.meets w s)
    (fun store : List (ℕ × Bool) => store.any Prod.snd) (wellFounded h hres hrank)
    (fun listMeets => ?_) (fun store => rfl) (fun c hc href => ?_) (fun depth l hne hl => ?_)
    (Nat.lt_succ_of_le mgr.card_knownReferences_le) hne fun c hc => h.ready hres (hl c hc)
  · exact ⟨rfl, fun _ _ => rfl, fun a ha => by simpa [scheme] using ha⟩
  · obtain ⟨met, hmet⟩ := Condition.exists_meets (w := w) (s := s)
      (hc.valid (reference?_eq_none.1 href))
    exact ⟨met, hmet, by simp [hmet]⟩
  · rw [meetList]
    congr 1
    exact foldlM_congr [] fun c hc store => meetStep_eq (hl c hc) _ store

end Meets

end ConditionMgr

/-! ## The object that is searched for -/

section Search

variable {mgr : ConditionMgr} {o c : O} {conditions : List Condition}

/-- The targets of a condition of a spell's targets : the object and the caster. -/
def targets (o c : O) : ConditionSourceInfo O :=
  { target0 := some o, target1 := some c }

/-- The filter of the grid search lets the object through, if it meets the conditions. -/
def FindsObject (mgr : ConditionMgr) (w : World O) (o c : O) (conditions : List Condition) :
    Prop :=
  mgr.isObjectMeetToConditions w (targets o c) conditions = .ok true →
    ∃ mask, mgr.getSearcherTypeMaskForConditionList conditions = .ok mask ∧
      mask.testBit (w.gridType o).bit = true

/-- What is asked of a condition for the object to be found : one about the first object is met or
admits its kind, one about the second object has to admit the kind of the first. -/
def LetsThrough (w : World O) (o c : O) (x : Condition) : Prop :=
  (x.conditionTarget = 0 ∧ x.meets w (targets o c) = .ok true) ∨ x.admits (w.gridType o) = true

/-- The search finds an object exactly when, if it meets the list, the conditions on one way through
the list let it through. -/
theorem findsObject_iff (rows : List ConditionRow)
    (hres : (ConditionMgr.loadConditions db rows).Resolvable)
    (hacyclic : (ConditionMgr.loadConditions db rows).Acyclic)
    (hl : ∀ x ∈ conditions, (ConditionMgr.loadConditions db rows).Has x) :
    FindsObject (ConditionMgr.loadConditions db rows) w o c conditions ↔
      (conditions ≠ [] →
        (ConditionMgr.loadConditions db rows).HasWay (fun x => x.meets w (targets o c) = .ok true)
          conditions →
        (ConditionMgr.loadConditions db rows).HasWay (LetsThrough w o c) conditions) := by
  have h := ConditionMgr.checked_loadConditions db rows
  obtain ⟨met, hmet, hmet_iff⟩ :=
    ConditionMgr.exists_isObjectMeetToConditions (w := w) (s := targets o c) h hres hacyclic hl
  obtain ⟨mask, hmask, hmask_iff⟩ :=
    ConditionMgr.exists_searcherTypeMask h hres hacyclic hl (w.gridType o)
  have hway : (ConditionMgr.loadConditions db rows).HasWay (LetsThrough w o c) conditions ↔
      (ConditionMgr.loadConditions db rows).HasWay (fun x => x.admits (w.gridType o) = true)
        conditions := by
    refine ⟨Passes.mono fun x hx => ?_, Passes.mono fun x hx => .inr hx⟩
    rcases hx with ⟨htarget, hmeets⟩ | hadmits
    · exact Condition.admits_of_meets htarget rfl hmeets
    · exact hadmits
  simp only [FindsObject, hmet, hmask, Except.ok.injEq, exists_eq_left', hmet_iff, hmask_iff, hway]
  tauto

/-- A world of one living object of each type. -/
def livingWorld : World GridMapType :=
  { (default : World GridMapType) with
    gridType := id
    isAlive := fun _ => true
    onConditionCheck := fun _ _ => true }

/-- A database with any spell, whose effects all search for their targets. -/
def spellDatabase : Database :=
  { (default : Database) with
    getSpellInfo := fun _ => true
    hasAreaTarget := fun _ _ => true
    addGrouped := fun _ _ => true }

theorem reference_of_store {id : ℕ} {conditions : List Condition}
    (hstore : mgr.conditionReferenceStore = [(id, conditions)]) (j : ℕ) :
    mgr.reference j = if id = j then some conditions else none := by
  simp only [ConditionMgr.reference, hstore, find, List.find?_cons, List.find?_nil]
  by_cases h : id = j <;> simp [h]

/-- A spell that affects living objects, through a reference template. -/
def livingTargets : ConditionMgr :=
  ConditionMgr.loadConditions spellDatabase
    [{ sourceTypeOrReferenceId := -7, conditionTypeOrReference := 36 },
      { sourceTypeOrReferenceId := 13, sourceGroup := 1, sourceEntry := 5246,
        conditionTypeOrReference := -7 }]

/-- Creatures are found. -/
theorem findsObject_creature :
    FindsObject livingTargets livingWorld .creature .player livingTargets.loaded := by
  have hstore : livingTargets.conditionReferenceStore = [(7, [{ conditionType := .alive }])] := by
    decide +kernel
  have hloaded : livingTargets.loaded =
      [{ sourceType := .spellImplicitTarget, sourceGroup := 1, sourceEntry := 5246,
         referenceId := 7 }] := by decide +kernel
  have href := reference_of_store hstore
  have hentry : ∀ id l, livingTargets.reference id = some l → ∀ x ∈ l, x.referenceId = 0 := by
    intro id l hid x hx
    rw [href] at hid
    split_ifs at hid
    obtain rfl := some.inj hid
    rw [mem_singleton.1 hx]
  have hres : livingTargets.Resolvable := by
    intro x hx hne
    rcases hx with hx | ⟨id, l, hid, hx⟩
    · rw [hloaded, mem_singleton] at hx
      exact ⟨_, by rw [hx, href, if_pos rfl]⟩
    · exact absurd (hentry id l hid x hx) hne
  have hacyclic : livingTargets.Acyclic :=
    ⟨id, fun id l hid x hx hne => absurd (hentry id l hid x hx) hne⟩
  have hway : livingTargets.HasWay (LetsThrough livingWorld .creature .player)
      livingTargets.loaded := by
    rw [ConditionMgr.HasWay, passes_iff, hloaded]
    simp only [mem_singleton, forall_eq, exists_eq_left, true_imp_iff]
    change Passes _ _ _ _ ((livingTargets.reference 7).getD [])
    rw [href, if_pos rfl, passes_iff]
    simp only [getD_some, mem_singleton, forall_eq, exists_eq_left, true_imp_iff]
    exact .inl ⟨rfl, rfl⟩
  exact (findsObject_iff _ hres hacyclic fun x hx => .inl hx).2 fun _ _ => hway

/-- The caster of a spell is to be alive. -/
def livingCaster : ConditionMgr :=
  ConditionMgr.loadConditions spellDatabase
    [{ sourceTypeOrReferenceId := 13, sourceGroup := 1, sourceEntry := 5246,
       conditionTypeOrReference := 36, conditionTarget := 1 }]

/-- The mask of the condition on the caster is that of creatures and players : a game object is
not found. -/
theorem not_findsObject_gameObject :
    livingCaster.Resolvable ∧ livingCaster.Acyclic ∧ (∀ x ∈ livingCaster.loaded, livingCaster.Has x) ∧
      ¬FindsObject livingCaster livingWorld .gameObject .player livingCaster.loaded := by
  have hloaded : livingCaster.loaded =
      [{ sourceType := .spellImplicitTarget, sourceGroup := 1, sourceEntry := 5246,
         conditionType := .alive, conditionTarget := 1 }] := by decide +kernel
  have hstore : livingCaster.conditionReferenceStore = [] := by decide +kernel
  have href : ∀ id, livingCaster.reference id = none := fun id => by
    rw [ConditionMgr.reference, hstore]
    rfl
  refine ⟨fun x hx hne => ?_, ⟨id, fun id l hid => ?_⟩, fun x hx => .inl hx, fun h => ?_⟩
  · rcases hx with hx | ⟨id, l, hid, -⟩
    · rw [hloaded, mem_singleton] at hx
      rw [hx] at hne
      exact absurd rfl hne
    · rw [href] at hid
      cases hid
  · rw [href] at hid
    cases hid
  · obtain ⟨mask, hmask, hbit⟩ := h (by decide +kernel)
    have heq : livingCaster.getSearcherTypeMaskForConditionList livingCaster.loaded = .ok 0x12 := by
      decide +kernel
    rw [heq] at hmask
    obtain rfl := Except.ok.inj hmask
    cases hbit

end Search

end MistyWorld
