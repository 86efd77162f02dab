import Mathlib.Algebra.Order.Group.Unbundled.Abs
import Mathlib.Algebra.Order.Ring.Rat
import MistyWorld.Chains
import MistyWorld.Pools
import MistyWorld.RefGraph

/-!
# Loading the pools of pools

`LoadFromDB` puts a child pool into the group of each pool that is its mother in a row of
`pool_pool`, but remembers only the first mother of a child, in `mPoolSearchMap`. The check for
circular references goes from child to mother in this map, and where it comes back to a pool it
takes the last link out of the map and of the group.

So the cycles of first mothers are opened, one link each. A cycle that goes through another mother
is not seen. What is left has no cycle exactly if every cycle of the rows contains a link that is
taken out (`noCycle_iff`), and then pools that spawn their child pools come to an end.
-/

open Function List

namespace MistyWorld

/-! ## Loading -/

/-- A row of `pool_pool`. -/
structure PoolPoolRow where
  poolId : ℕ
  motherPool : ℕ
  chance : ℚ
  deriving DecidableEq

namespace PoolGroup

/-- `AddEntry` -/
def addEntry (group : PoolGroup) (poolitem : PoolObject) (maxentries : ℕ) : PoolGroup :=
  if poolitem.chance ≠ 0 ∧ maxentries = 1 then
    { group with explicitlyChanced := group.explicitlyChanced ++ [poolitem] }
  else
    { group with equalChanced := group.equalChanced ++ [poolitem] }

/-- `RemoveOneRelation` -/
def removeOneRelation (group : PoolGroup) (childPoolId : ℕ) : PoolGroup where
  explicitlyChanced := group.explicitlyChanced.eraseP fun o => o.guid = childPoolId
  equalChanced := group.equalChanced.eraseP fun o => o.guid = childPoolId

/-- One of the two lists of a group. -/
def entries (group : PoolGroup) (explicitly : Bool) : List PoolObject :=
  if explicitly then group.explicitlyChanced else group.equalChanced

end PoolGroup

/-- `mPoolPoolGroups` and `mPoolSearchMap`. -/
structure PoolPools where
  groups : ℕ → PoolGroup := fun _ => {}
  searchMap : ℕ → Option ℕ := fun _ => none

namespace PoolPools

variable (maxPoolId : ℕ) (maxLimit : ℕ → ℕ)

/-- A row of `pool_pool` is loaded, or skipped. -/
def loadRow (s : PoolPools) (row : PoolPoolRow) : PoolPools :=
  if row.motherPool > maxPoolId then s
  else if row.poolId > maxPoolId then s
  else if row.motherPool = row.poolId then s
  else if row.chance < 0 ∨ row.chance > 100 then s
  else
    let group := (s.groups row.motherPool).addEntry ⟨row.poolId, |row.chance|⟩
      (maxLimit row.motherPool)
    { groups := update s.groups row.motherPool group
      searchMap := if (s.searchMap row.poolId).isSome then s.searchMap else
        update s.searchMap row.poolId (some row.motherPool) }

/-- The check for a circular reference from a pool on. The fuel is enough for all pools. -/
def checkCircular (s : PoolPools) (i : ℕ) : PoolPools :=
  match Chains.firstReturn s.searchMap (maxPoolId + 1) [] i with
  | none => s
  | some (child, mother) =>
    { groups := update s.groups mother ((s.groups mother).removeOneRelation child)
      searchMap := update s.searchMap child none }

/-- The groups and the map after the pools of pools are loaded and checked. -/
def loadPoolPools (rows : List PoolPoolRow) : PoolPools :=
  (List.range maxPoolId).foldl (checkCircular maxPoolId)
    (rows.foldl (loadRow maxPoolId maxLimit) {})

/-- The child pool occurs in the group of the mother pool. -/
def IsChild (s : PoolPools) (child mother : ℕ) : Prop :=
  child ∈ (s.groups mother).guids

/-- How often the child pool is in one of the lists of the mother pool. -/
def entryCount (s : PoolPools) (explicitly : Bool) (child mother : ℕ) : ℕ :=
  ((s.groups mother).entries explicitly).countP fun o => o.guid = child

end PoolPools

/-! ## The links of the table -/

section Links

variable (maxPoolId : ℕ) (maxLimit : ℕ → ℕ) (rows : List PoolPoolRow)

/-- The row is not skipped. -/
def PoolPoolRow.Accepted (row : PoolPoolRow) : Prop :=
  row.motherPool ≤ maxPoolId ∧ row.poolId ≤ maxPoolId ∧ row.motherPool ≠ row.poolId ∧
    0 ≤ row.chance ∧ row.chance ≤ 100

instance (row : PoolPoolRow) : Decidable (row.Accepted maxPoolId) :=
  inferInstanceAs (Decidable (_ ∧ _))

/-- The first mother of a pool in the table. -/
def firstMother (child : ℕ) : Option ℕ :=
  (rows.find? fun row => row.Accepted maxPoolId ∧ row.poolId = child).map PoolPoolRow.motherPool

/-- How many rows put the child pool into one of the lists of the mother pool : those with a chance
are listed explicitly if the mother has a limit of one. -/
def rowCount (explicitly : Bool) (child mother : ℕ) : ℕ :=
  rows.countP fun row => row.Accepted maxPoolId ∧ row.poolId = child ∧ row.motherPool = mother ∧
    (explicitly = true ↔ row.chance ≠ 0 ∧ maxLimit mother = 1)

/-- The link from child to mother closes a cycle of first mothers : it is the one with which the
chain of the least pool that leads into the cycle comes back. -/
def ClosesCycle (child mother : ℕ) : Prop :=
  ∃ i, Chains.Closing (firstMother maxPoolId rows) i child mother

/-- A link of the table that stays : one that closes a cycle of first mothers only if a list has it
more than once. -/
def Stays (child mother : ℕ) : Prop :=
  ∃ explicitly, 0 < rowCount maxPoolId maxLimit rows explicitly child mother ∧
    (ClosesCycle maxPoolId rows child mother →
      1 < rowCount maxPoolId maxLimit rows explicitly child mother)

end Links

/-! ## The lists of a group -/

namespace PoolGroup

theorem mem_guids_iff {group : PoolGroup} {g : ℕ} :
    g ∈ group.guids ↔ ∃ explicitly, 0 < (group.entries explicitly).countP fun o => o.guid = g := by
  simp only [mem_guids, countP_pos_iff, decide_eq_true_eq]
  constructor
  · rintro (⟨o, ho, hg⟩ | ⟨o, ho, hg⟩)
    · exact ⟨false, o, ho, hg⟩
    · exact ⟨true, o, ho, hg⟩
  · rintro ⟨explicitly, o, ho, hg⟩
    cases explicitly with
    | false => exact .inl ⟨o, ho, hg⟩
    | true => exact .inr ⟨o, ho, hg⟩

theorem entries_addEntry (group : PoolGroup) (o : PoolObject) (maxentries : ℕ)
    (explicitly : Bool) : (group.addEntry o maxentries).entries explicitly =
      if explicitly = true ↔ o.chance ≠ 0 ∧ maxentries = 1 then group.entries explicitly ++ [o]
      else group.entries explicitly := by
  rw [addEntry]
  by_cases hlist : o.chance ≠ 0 ∧ maxentries = 1
  · cases explicitly <;> simp [entries, hlist]
  · cases explicitly <;> simp [entries, hlist]

theorem countP_eraseP (l : List PoolObject) (c g : ℕ) :
    (l.eraseP fun o => o.guid = c).countP (fun o => o.guid = g) =
      l.countP (fun o => o.guid = g) - if c = g then 1 else 0 := by
  induction l with
  | nil => simp
  | cons o l ih =>
    by_cases hc : o.guid = c
    · rw [eraseP_cons_of_pos (by simpa using hc), countP_cons, hc]
      by_cases hg : c = g <;> simp [hg]
    · rw [eraseP_cons_of_neg (by simpa using hc), countP_cons, countP_cons, ih]
      by_cases hcg : c = g
      · have hg : o.guid ≠ g := fun h => hc (h.trans hcg.symm)
        simp [hg]
      · simp [hcg]

end PoolGroup

/-! ## The rows -/

namespace PoolPools

variable {maxPoolId : ℕ} {maxLimit : ℕ → ℕ}

theorem loadRow_of_accepted {row : PoolPoolRow} (h : row.Accepted maxPoolId) (s : PoolPools) :
    s.loadRow maxPoolId maxLimit row =
      { groups := update s.groups row.motherPool
          ((s.groups row.motherPool).addEntry ⟨row.poolId, |row.chance|⟩
            (maxLimit row.motherPool))
        searchMap := if (s.searchMap row.poolId).isSome then s.searchMap else
          update s.searchMap row.poolId (some row.motherPool) } := by
  obtain ⟨hmother, hchild, hne, hlow, hhigh⟩ := h
  rw [loadRow, if_neg (not_lt.2 hmother), if_neg (not_lt.2 hchild), if_neg hne,
    if_neg (not_or.2 ⟨not_lt.2 hlow, not_lt.2 hhigh⟩)]

theorem loadRow_of_not_accepted {row : PoolPoolRow} (h : ¬row.Accepted maxPoolId)
    (s : PoolPools) : s.loadRow maxPoolId maxLimit row = s := by
  rw [loadRow]
  by_cases hmother : row.motherPool > maxPoolId
  · rw [if_pos hmother]
  by_cases hchild : row.poolId > maxPoolId
  · rw [if_neg hmother, if_pos hchild]
  by_cases hne : row.motherPool = row.poolId
  · rw [if_neg hmother, if_neg hchild, if_pos hne]
  by_cases hchance : row.chance < 0 ∨ row.chance > 100
  · rw [if_neg hmother, if_neg hchild, if_neg hne, if_pos hchance]
  · rw [not_or] at hchance
    exact absurd ⟨Nat.le_of_not_lt hmother, Nat.le_of_not_lt hchild, hne, not_lt.1 hchance.1,
      not_lt.1 hchance.2⟩ h

/-- A child pool is remembered with its first mother. -/
theorem searchMap_loadRows (rows : List PoolPoolRow) (s : PoolPools) (child : ℕ) :
    (rows.foldl (loadRow maxPoolId maxLimit) s).searchMap child =
      (s.searchMap child).or (firstMother maxPoolId rows child) := by
  induction rows generalizing s with
  | nil => simp [firstMother]
  | cons row rows ih =>
    rw [foldl_cons, ih]
    by_cases haccepted : row.Accepted maxPoolId
    · rw [loadRow_of_accepted haccepted, firstMother, firstMother, List.find?_cons]
      by_cases hchild : row.poolId = child
      · subst hchild
        cases hfound : s.searchMap row.poolId <;> simp [haccepted, hfound]
      · have hother : update s.searchMap row.poolId (some row.motherPool) child =
            s.searchMap child := update_of_ne (Ne.symm hchild) _ _
        cases hfound : s.searchMap row.poolId <;> simp [hchild, hother]
    · rw [loadRow_of_not_accepted haccepted, firstMother, firstMother, List.find?_cons]
      simp [haccepted]

theorem entryCount_loadRows (rows : List PoolPoolRow) (s : PoolPools) (explicitly : Bool)
    (child mother : ℕ) :
    (rows.foldl (loadRow maxPoolId maxLimit) s).entryCount explicitly child mother =
      s.entryCount explicitly child mother +
        rowCount maxPoolId maxLimit rows explicitly child mother := by
  induction rows generalizing s with
  | nil => rfl
  | cons row rows ih =>
    rw [foldl_cons, ih, rowCount, rowCount, countP_cons]
    by_cases haccepted : row.Accepted maxPoolId
    · rw [loadRow_of_accepted haccepted, entryCount, entryCount]
      dsimp only
      by_cases hmother : row.motherPool = mother
      · subst hmother
        rw [update_self, PoolGroup.entries_addEntry]
        by_cases hlist : explicitly = true ↔ row.chance ≠ 0 ∧ maxLimit row.motherPool = 1
        · have hlist' : explicitly = true ↔ |row.chance| ≠ 0 ∧ maxLimit row.motherPool = 1 := by
            rwa [abs_ne_zero]
          rw [if_pos hlist', countP_append, countP_singleton]
          by_cases hchild : row.poolId = child
          · simp only [hchild, haccepted, hlist, decide_true, if_true, and_self]
            omega
          · simp [hchild]
        · have hlist' : ¬(explicitly = true ↔ |row.chance| ≠ 0 ∧ maxLimit row.motherPool = 1) := by
            rwa [abs_ne_zero]
          simp [hlist]
      · rw [update_of_ne (Ne.symm hmother)]
        simp [hmother]
    · rw [loadRow_of_not_accepted haccepted]
      simp [haccepted]

/-! ## The check for circular references -/

theorem checkCircular_of_none {s : PoolPools} {i : ℕ}
    (h : Chains.firstReturn s.searchMap (maxPoolId + 1) [] i = none) :
    s.checkCircular maxPoolId i = s := by
  rw [checkCircular, h]

theorem checkCircular_of_some {s : PoolPools} {i c m : ℕ}
    (h : Chains.firstReturn s.searchMap (maxPoolId + 1) [] i = some (c, m)) :
    s.checkCircular maxPoolId i =
      { groups := update s.groups m ((s.groups m).removeOneRelation c)
        searchMap := update s.searchMap c none } := by
  rw [checkCircular, h]

theorem entryCount_removed (s : PoolPools) (searchMap : ℕ → Option ℕ) (c m : ℕ)
    (explicitly : Bool) (child mother : ℕ) :
    entryCount ⟨update s.groups m ((s.groups m).removeOneRelation c), searchMap⟩ explicitly
        child mother =
      s.entryCount explicitly child mother - if c = child ∧ m = mother then 1 else 0 := by
  rw [entryCount, entryCount]
  by_cases hm : m = mother
  · subst hm
    have hentries : ((s.groups m).removeOneRelation c).entries explicitly =
        ((s.groups m).entries explicitly).eraseP fun o => o.guid = c := by
      cases explicitly <;> rfl
    dsimp only
    rw [update_self, hentries, PoolGroup.countP_eraseP]
    simp
  · dsimp only
    rw [update_of_ne (Ne.symm hm)]
    simp [hm]

/-- After the check from the pools less than `k`, their cycles are opened, and each link that was
taken out is in the lists of its mother once less. -/
structure Checked (s₀ s : PoolPools) (k : ℕ) : Prop where
  cut : Chains.Cut s₀.searchMap s.searchMap k
  removed : ∀ explicitly c m, (∃ i < k, Chains.Closing s₀.searchMap i c m) →
    s.entryCount explicitly c m = s₀.entryCount explicitly c m - 1
  kept : ∀ explicitly c m, (¬∃ i < k, Chains.Closing s₀.searchMap i c m) →
    s.entryCount explicitly c m = s₀.entryCount explicitly c m

variable {s₀ s : PoolPools} {k : ℕ}

theorem Checked.checkCircular (hkeys : ∀ c m, s₀.searchMap c = some m → c ≤ maxPoolId)
    (h : Checked s₀ s k) : Checked s₀ (s.checkCircular maxPoolId k) (k + 1) := by
  have hfound : ∀ c m, Chains.firstReturn s.searchMap (maxPoolId + 1) [] k = some (c, m) ↔
      Chains.Returns s.searchMap k c m := by
    intro c m
    refine @Chains.firstReturn_eq_some_iff ℕ _ _ _ _ _ (Finset.range (maxPoolId + 1)) _ ?_ ?_
    · intro x y hxy
      exact Finset.mem_range.2 (Nat.lt_succ_of_le (hkeys x y (h.cut.le hxy)))
    · rw [Finset.card_range]
  have hsplit : ∀ c m, (∃ i < k + 1, Chains.Closing s₀.searchMap i c m) ↔
      (∃ i < k, Chains.Closing s₀.searchMap i c m) ∨ Chains.Returns s.searchMap k c m := by
    intro c m
    rw [Chains.returns_cut_iff h.cut]
    constructor
    · rintro ⟨i, hi, hclosing⟩
      rcases Nat.lt_succ_iff_lt_or_eq.1 hi with hi | rfl
      · exact .inl ⟨i, hi, hclosing⟩
      · exact .inr hclosing
    · rintro (⟨i, hi, hclosing⟩ | hclosing)
      · exact ⟨i, Nat.lt_succ_of_lt hi, hclosing⟩
      · exact ⟨k, Nat.lt_succ_self k, hclosing⟩
  cases hreturn : Chains.firstReturn s.searchMap (maxPoolId + 1) [] k with
  | none =>
    have hnot : ∀ c m, ¬Chains.Returns s.searchMap k c m := fun c m hreturns => by
      rw [(hfound c m).2 hreturns] at hreturn
      cases hreturn
    rw [checkCircular_of_none hreturn]
    refine ⟨h.cut.succ_of_not_returns hnot, fun e c m hc => ?_, fun e c m hc => ?_⟩
    · exact h.removed e c m (((hsplit c m).1 hc).resolve_right (hnot c m))
    · exact h.kept e c m fun hk => hc ((hsplit c m).2 (.inl hk))
  | some link =>
    obtain ⟨c, m⟩ := link
    have hreturns := (hfound c m).1 hreturn
    have hlink : ∀ child mother, Chains.Returns s.searchMap k child mother ↔
        c = child ∧ m = mother := by
      intro child mother
      rw [← hfound, hreturn, Option.some.injEq, Prod.mk.injEq]
    have hnew : ¬∃ i < k, Chains.Closing s₀.searchMap i c m := by
      rintro ⟨i, hi, hclosing⟩
      obtain ⟨last, -, hstep, -⟩ := hreturns
      rw [h.cut.cut c ⟨i, hi, m, hclosing⟩] at hstep
      cases hstep
    rw [checkCircular_of_some hreturn]
    refine ⟨h.cut.succ_of_returns hreturns, fun e child mother hc => ?_,
      fun e child mother hc => ?_⟩
    · rw [entryCount_removed]
      rcases (hsplit child mother).1 hc with hold | hret
      · have hne : ¬(c = child ∧ m = mother) := by
          rintro ⟨rfl, rfl⟩
          exact hnew hold
        rw [if_neg hne, Nat.sub_zero, h.removed e child mother hold]
      · obtain ⟨rfl, rfl⟩ := (hlink child mother).1 hret
        rw [if_pos ⟨rfl, rfl⟩, h.kept e c m hnew]
    · have hne : ¬(c = child ∧ m = mother) := fun heq =>
        hc ((hsplit child mother).2 (.inr ((hlink child mother).2 heq)))
      have hnot : ¬∃ i < k, Chains.Closing s₀.searchMap i child mother := fun hold =>
        hc ((hsplit child mother).2 (.inl hold))
      rw [entryCount_removed, if_neg hne, Nat.sub_zero, h.kept e child mother hnot]

theorem checked_range (hkeys : ∀ c m, s₀.searchMap c = some m → c ≤ maxPoolId) (k : ℕ) :
    Checked s₀ ((List.range k).foldl (PoolPools.checkCircular maxPoolId) s₀) k := by
  induction k with
  | zero =>
    exact ⟨.zero _, fun _ _ _ ⟨_, hi, _⟩ => absurd hi (Nat.not_lt_zero _), fun _ _ _ _ => rfl⟩
  | succ k ih =>
    rw [range_succ, foldl_append]
    exact ih.checkCircular hkeys

end PoolPools

/-! ## What is left -/

section Left

variable (maxPoolId : ℕ) (maxLimit : ℕ → ℕ) (rows : List PoolPoolRow)

theorem firstMother_eq_some {child mother : ℕ}
    (h : firstMother maxPoolId rows child = some mother) :
    mother ≤ maxPoolId ∧ child ≤ maxPoolId ∧ mother ≠ child := by
  obtain ⟨row, hrow, rfl⟩ := Option.map_eq_some_iff.1 h
  have hfound := List.find?_some hrow
  rw [decide_eq_true_eq] at hfound
  obtain ⟨⟨hmother, hchild, hne, -⟩, rfl⟩ := hfound
  exact ⟨hmother, hchild, hne⟩

/-- The pool from which a cycle is found is one that is checked. -/
theorem lt_of_closing {i child mother : ℕ}
    (h : Chains.Closing (firstMother maxPoolId rows) i child mother) : i < maxPoolId := by
  obtain ⟨hleast, last, hlast, hstep, ⟨first, hfirst, hm⟩, -⟩ := h
  obtain ⟨hmother, hchild, hne⟩ := firstMother_eq_some maxPoolId rows hstep
  have hi : i ≤ child := Nat.le_of_not_lt fun hlt => hleast child hlt ⟨0, rfl⟩
  have hi' : i ≤ mother := Nat.le_of_not_lt fun hlt =>
    hleast mother hlt (Chains.Leads.of_le hm hlast hfirst)
  omega

/-- A child pool is left in the group of a mother exactly if the link stays. -/
theorem isChild_loadPoolPools_iff (child mother : ℕ) :
    (PoolPools.loadPoolPools maxPoolId maxLimit rows).IsChild child mother ↔
      Stays maxPoolId maxLimit rows child mother := by
  have hsearch : ∀ c, (rows.foldl (PoolPools.loadRow maxPoolId maxLimit) {}).searchMap c =
      firstMother maxPoolId rows c := fun c => by
    rw [PoolPools.searchMap_loadRows]
    rfl
  have hentry : ∀ e, (rows.foldl (PoolPools.loadRow maxPoolId maxLimit) {}).entryCount e child
      mother = rowCount maxPoolId maxLimit rows e child mother := fun e => by
    rw [PoolPools.entryCount_loadRows]
    cases e <;> exact zero_add _
  have hchecked := @PoolPools.checked_range maxPoolId
    (rows.foldl (PoolPools.loadRow maxPoolId maxLimit) {})
    (fun c m hcm => (firstMother_eq_some maxPoolId rows ((hsearch c).symm.trans hcm)).2.1) maxPoolId
  have hcloses : ClosesCycle maxPoolId rows child mother ↔ ∃ i < maxPoolId, Chains.Closing
      (rows.foldl (PoolPools.loadRow maxPoolId maxLimit) {}).searchMap i child mother := by
    rw [funext hsearch, ClosesCycle]
    exact ⟨fun ⟨i, h⟩ => ⟨i, lt_of_closing maxPoolId rows h, h⟩, fun ⟨i, _, h⟩ => ⟨i, h⟩⟩
  rw [PoolPools.IsChild, PoolGroup.mem_guids_iff, Stays]
  refine exists_congr fun e => ?_
  change 0 < (PoolPools.loadPoolPools maxPoolId maxLimit rows).entryCount e child mother ↔ _
  rw [PoolPools.loadPoolPools, hcloses]
  by_cases hc : ∃ i < maxPoolId, Chains.Closing
      (rows.foldl (PoolPools.loadRow maxPoolId maxLimit) {}).searchMap i child mother
  · rw [hchecked.removed e child mother hc, hentry]
    exact ⟨fun h => ⟨by omega, fun _ => by omega⟩, fun h => by have := h.2 hc; omega⟩
  · rw [hchecked.kept e child mother hc, hentry]
    exact ⟨fun h => ⟨h, fun hc' => absurd hc' hc⟩, And.left⟩

/-- A pool is not a member of itself, directly or by way of other pools. -/
def NoCycle (r : ℕ → ℕ → Prop) : Prop :=
  ∀ pool, ¬Relation.TransGen r pool pool

/-- Where there is no cycle, going from mother to child comes to an end. -/
theorem wellFounded_isChild_iff :
    WellFounded (PoolPools.loadPoolPools maxPoolId maxLimit rows).IsChild ↔
      NoCycle (PoolPools.loadPoolPools maxPoolId maxLimit rows).IsChild := by
  obtain ⟨r, hr⟩ : ∃ r, (PoolPools.loadPoolPools maxPoolId maxLimit rows).IsChild = r := ⟨_, rfl⟩
  have hfin : {child | ∃ mother, r child mother}.Finite := by
    refine (Set.finite_le_nat maxPoolId).subset ?_
    rintro child ⟨mother, hchild⟩
    rw [← hr, isChild_loadPoolPools_iff] at hchild
    obtain ⟨e, hpos, -⟩ := hchild
    obtain ⟨row, -, hrow⟩ := countP_pos_iff.1 hpos
    rw [decide_eq_true_eq] at hrow
    exact hrow.2.1 ▸ hrow.1.2.1
  rw [hr]
  constructor
  · intro hwf pool hcycle
    exact hwf.transGen.irrefl.irrefl pool hcycle
  · intro hno
    refine ⟨fun pool => ?_⟩
    refine @RefGraph.acc_of_not_endless ℕ (flip r) pool hfin ?_
    rintro ⟨other, -, hcycle⟩
    exact hno other (Relation.transGen_swap.1 hcycle)

/-- What is loaded has no cycle, and then spawning and despawning pools with their child pools comes
to an end, if and only if every cycle of the table contains a link that closes a cycle of first
mothers. -/
theorem noCycle_iff (maxPoolId : ℕ) (maxLimit : ℕ → ℕ) (rows : List PoolPoolRow) :
    (NoCycle (PoolPools.loadPoolPools maxPoolId maxLimit rows).IsChild ↔
      NoCycle (Stays maxPoolId maxLimit rows)) ∧
    (WellFounded (PoolPools.loadPoolPools maxPoolId maxLimit rows).IsChild ↔
      NoCycle (Stays maxPoolId maxLimit rows)) := by
  have hsame : (PoolPools.loadPoolPools maxPoolId maxLimit rows).IsChild =
      Stays maxPoolId maxLimit rows := by
    funext child mother
    exact propext (isChild_loadPoolPools_iff maxPoolId maxLimit rows child mother)
  rw [wellFounded_isChild_iff, hsame]
  exact ⟨Iff.rfl, Iff.rfl⟩

end Left

/-- The first pool is a child of the third and of the second, and the second of the first. -/
def twoMothers : List PoolPoolRow :=
  [⟨1, 3, 0⟩, ⟨1, 2, 0⟩, ⟨2, 1, 0⟩]

/-- The first mother of the first pool is the third, so that the cycle is not seen. -/
theorem not_noCycle_twoMothers :
    ¬NoCycle (PoolPools.loadPoolPools 3 (fun _ => 1) twoMothers).IsChild := by
  intro hno
  have h : (PoolPools.loadPoolPools 3 (fun _ => 1) twoMothers).IsChild 1 2 := by
    rw [PoolPools.IsChild]
    decide +kernel
  have h' : (PoolPools.loadPoolPools 3 (fun _ => 1) twoMothers).IsChild 2 1 := by
    rw [PoolPools.IsChild]
    decide +kernel
  exact hno 1 (Relation.TransGen.tail (Relation.TransGen.single h) h')

end MistyWorld
