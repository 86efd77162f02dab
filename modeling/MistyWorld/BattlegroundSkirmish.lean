import MistyWorld.BattlegroundQueue

/-!
# Skirmishes within one faction

When an arena has no normal match, `CheckSkirmishForSameFaction` looks for two teams of one faction.
The faction is that of the alliance unless the pool of the horde has exactly the players that are
needed, and the last group of its pool is read without a look whether there is one. Then groups of
the faction are moved to the other one, before the battleground is created. So the search is safe
unless the alliance has no group and the horde too many players, and nothing changes without a
battleground unless two teams are found (`skirmish_iff`).
-/

namespace MistyWorld

namespace BattlegroundQueue

/-- The faction that a skirmish is looked for in. -/
def skirmishTeam (minPlayersPerTeam : ℕ) (pools : SelectionPools) : Team :=
  if (pools .horde).playerCount = minPlayersPerTeam then .horde else .alliance

/-- The search goes beyond its first test. -/
def Searches (minPlayersPerTeam : ℕ) (pools : SelectionPools) : Prop :=
  ¬((pools .alliance).playerCount < minPlayersPerTeam ∧
    (pools .horde).playerCount < minPlayersPerTeam)

instance (minPlayersPerTeam : ℕ) (pools : SelectionPools) :
    Decidable (Searches minPlayersPerTeam pools) :=
  inferInstanceAs (Decidable ¬_)

/-- The last element that is read is there. -/
def ReadsLast (minPlayersPerTeam : ℕ) (pools : SelectionPools) : Prop :=
  Searches minPlayersPerTeam pools →
    (pools (skirmishTeam minPlayersPerTeam pools)).selectedGroups ≠ []

/-- No group is of another faction or in another queue. -/
def Unmoved (q q' : BattlegroundQueue) : Prop :=
  (∀ g, (q'.info g).team = (q.info g).team) ∧ q'.queuedGroups = q.queuedGroups

/-- The players of the groups that are not invited and fit, taken in their order. -/
def fitting (q : BattlegroundQueue) (desiredCount : ℕ) (l : List ℕ) : ℕ :=
  l.foldl (fun n g =>
    if q.isInvited g = false ∧ n + q.size g ≤ desiredCount then n + q.size g else n) 0

/-- Behind the last group of the pool there are groups of the faction that make a second team. -/
def SecondTeam (q : BattlegroundQueue) (bracket : BracketId) (minPlayersPerTeam : ℕ)
    (pools : SelectionPools) : Prop :=
  Searches minPlayersPerTeam pools ∧
    ∃ g, (pools (skirmishTeam minPlayersPerTeam pools)).selectedGroups.getLast? = some g ∧
      g ∈ q.queuedGroups (bracket, .normal (skirmishTeam minPlayersPerTeam pools)) ∧
      q.fitting minPlayersPerTeam
        ((q.queuedGroups (bracket, .normal (skirmishTeam minPlayersPerTeam pools))).drop
          ((q.queuedGroups (bracket, .normal (skirmishTeam minPlayersPerTeam pools))).idxOf g +
            1)) = minPlayersPerTeam

/-! ## Pools of a normal match -/

/-- The player count is that of the selected groups, and no more than some players. -/
def Bounded (q : BattlegroundQueue) (maxPlayers : ℕ) (pool : SelectionPool) : Prop :=
  pool.Counted q.size ∧ pool.playerCount ≤ maxPlayers

variable {q : BattlegroundQueue} {maxPlayers desiredCount : ℕ} {pool : SelectionPool}

theorem bounded_empty : q.Bounded maxPlayers {} :=
  ⟨rfl, Nat.zero_le _⟩

section

variable (h : q.Bounded maxPlayers pool)
include h

theorem Bounded.addGroup (hle : desiredCount ≤ maxPlayers) (g : ℕ) :
    q.Bounded maxPlayers (pool.addGroup g (q.info g) desiredCount).1 := by
  rw [SelectionPool.addGroup]
  split_ifs with hadd
  · obtain ⟨hcounted, -⟩ := h
    refine ⟨?_, hadd.2.trans hle⟩
    rw [SelectionPool.Counted] at hcounted ⊢
    simp [hcounted, size]
  · exact h

theorem Bounded.addGroups (hle : desiredCount ≤ maxPlayers) (l : List ℕ) :
    q.Bounded maxPlayers (q.addGroups desiredCount pool l) := by
  induction l generalizing pool with
  | nil => exact h
  | cons g l ih =>
    rw [BattlegroundQueue.addGroups]
    dsimp only
    split_ifs
    · exact ih h
    · exact ih (h.addGroup hle g)
    · exact h.addGroup hle g

theorem Bounded.addUntil (minPlayers : ℕ) (l : List ℕ) :
    q.Bounded maxPlayers (q.addUntil minPlayers maxPlayers pool l).1 := by
  induction l generalizing pool with
  | nil => exact h
  | cons g l ih =>
    rw [BattlegroundQueue.addUntil]
    dsimp only
    split_ifs
    · exact ih h
    · exact h.addGroup (le_refl _) g
    · exact ih (h.addGroup (le_refl _) g)

end

/-- The pools that the search for a normal match leaves. -/
theorem bounded_checkNormalMatch (bracket : BracketId) (minPlayers invitationType : ℕ)
    (isTesting : Bool) (beyond : List ℕ) (team : Team) :
    q.Bounded maxPlayers ((q.checkNormalMatch bracket minPlayers maxPlayers invitationType isTesting
      beyond fun _ => {}).1 team) := by
  have huntil : ∀ team, q.Bounded maxPlayers (q.addUntil minPlayers maxPlayers ({} : SelectionPool)
      (q.queuedGroups (bracket, .normal team))).1 := fun team => bounded_empty.addUntil minPlayers _
  rw [checkNormalMatch]
  dsimp only
  -- the pool of the faction with less players is filled up to the players of the other one
  have hmore : ∀ (j : Team) (l : List ℕ), q.Bounded maxPlayers (Function.update
      (fun team => (q.addUntil minPlayers maxPlayers ({} : SelectionPool)
        (q.queuedGroups (bracket, .normal team))).1) j
      (q.addGroups (q.addUntil minPlayers maxPlayers ({} : SelectionPool)
          (q.queuedGroups (bracket, .normal j.other))).1.playerCount
        (q.addUntil minPlayers maxPlayers ({} : SelectionPool)
          (q.queuedGroups (bracket, .normal j))).1 l) team) := by
    intro j l
    by_cases hteam : team = j
    · rw [hteam, Function.update_self]
      exact (huntil j).addGroups (huntil j.other).2 l
    · rw [Function.update_of_ne hteam]
      exact huntil team
  split_ifs <;> first | exact hmore _ _ | exact huntil team

/-- A pool without groups has no players. -/
theorem Bounded.playerCount_eq_zero (h : q.Bounded maxPlayers pool)
    (hnil : pool.selectedGroups = []) : pool.playerCount = 0 := by
  obtain ⟨hcounted, -⟩ := h
  rwa [SelectionPool.Counted, hnil] at hcounted

/-! ## The second team -/

/-- The pool of the second team has the players of the groups that fit. -/
theorem playerCount_addGroups (desiredCount : ℕ) (l : List ℕ) :
    (q.addGroups desiredCount {} l).playerCount = q.fitting desiredCount l := by
  have hfull : ∀ (l : List ℕ) (n : ℕ), desiredCount ≤ n → l.foldl (fun n g =>
      if q.isInvited g = false ∧ n + q.size g ≤ desiredCount then n + q.size g else n) n = n := by
    intro l
    induction l with
    | nil => exact fun _ _ => rfl
    | cons g l ih =>
      intro n hn
      have hsame : (if q.isInvited g = false ∧ n + q.size g ≤ desiredCount then n + q.size g
          else n) = n := by
        split_ifs with hfit
        · omega
        · rfl
      rw [List.foldl_cons, hsame, ih n hn]
  have hall : ∀ (l : List ℕ) (pool : SelectionPool),
      (q.addGroups desiredCount pool l).playerCount = l.foldl (fun n g =>
        if q.isInvited g = false ∧ n + q.size g ≤ desiredCount then n + q.size g else n)
        pool.playerCount := by
    intro l
    induction l with
    | nil => exact fun _ => rfl
    | cons g l ih =>
      intro pool
      rw [BattlegroundQueue.addGroups, List.foldl_cons]
      dsimp only
      cases hinvited : q.isInvited g with
      | true =>
        rw [if_pos rfl, ih, if_neg fun h => nomatch h.1]
      | false =>
        have hguid : (q.info g).isInvitedToBGInstanceGUID = 0 := by
          simpa [isInvited] using hinvited
        rw [if_neg Bool.false_ne_true]
        by_cases hfit : pool.playerCount + q.size g ≤ desiredCount
        · have hadded : pool.addGroup g (q.info g) desiredCount =
              ({ selectedGroups := pool.selectedGroups ++ [g]
                 playerCount := pool.playerCount + (q.info g).players.card }, true) :=
            if_pos ⟨hguid, hfit⟩
          rw [hadded, if_pos rfl, ih, if_pos ⟨rfl, hfit⟩]
          rfl
        · have hadded : pool.addGroup g (q.info g) desiredCount =
              (pool, decide (pool.playerCount < desiredCount)) := if_neg fun h => hfit h.2
          have hsame : (if false = false ∧ pool.playerCount + q.size g ≤ desiredCount then
              pool.playerCount + q.size g else pool.playerCount) = pool.playerCount :=
            if_neg fun h => hfit h.2
          rw [hadded, hsame]
          split_ifs with hmore
          · exact ih pool
          · exact (hfull l pool.playerCount (by simpa using hmore)).symm
  exact hall l {}

/-- The first group that is moved is one more in the queue of the other faction. -/
theorem lt_length_foldl_moveToOther (bracket : BracketId) (team : Team) (itrTeam : ℕ) {l : List ℕ}
    (hl : l ≠ []) (q : BattlegroundQueue) :
    (q.queuedGroups (bracket, .normal team.other)).length <
      ((l.foldl (moveToOther bracket team) (q, some itrTeam)).1.queuedGroups
        (bracket, .normal team.other)).length := by
  have hne : ((bracket, .normal team.other) : QueueIndex) ≠ (bracket, .normal team) := by
    cases team <;> simp [Team.other]
  have hstep : ∀ (s : BattlegroundQueue × Option ℕ) (g : ℕ),
      ((moveToOther bracket team s g).1.queuedGroups (bracket, .normal team.other)).length =
        (s.1.queuedGroups (bracket, .normal team.other)).length + s.2.toList.length := by
    rintro ⟨q, _ | itrTeam⟩ g
    · rfl
    · simp [moveToOther, setQueue, Function.update_of_ne hne, modify]
  have hmore : ∀ (l : List ℕ) (s : BattlegroundQueue × Option ℕ),
      (s.1.queuedGroups (bracket, .normal team.other)).length ≤
        ((l.foldl (moveToOther bracket team) s).1.queuedGroups
          (bracket, .normal team.other)).length := by
    intro l
    induction l with
    | nil => exact fun _ => le_refl _
    | cons g l ih =>
      intro s
      refine le_trans ?_ (ih _)
      rw [hstep]
      exact Nat.le_add_right _ _
  obtain ⟨g, l, rfl⟩ := List.exists_cons_of_ne_nil hl
  refine lt_of_lt_of_le ?_ (hmore l _)
  rw [hstep]
  exact Nat.lt_succ_self _

/-! ## The search -/

section Search

variable {bracket : BracketId} {minPlayersPerTeam back : ℕ} {pools : SelectionPools}

/-- The first test fails. -/
theorem skirmish_of_not_searches (h : ¬Searches minPlayersPerTeam pools) :
    q.checkSkirmishForSameFaction bracket minPlayersPerTeam back pools = (q, none) := by
  rw [checkSkirmishForSameFaction, skirmishPool, if_pos (not_not.1 h)]

/-- Without a second team nothing changes. -/
theorem skirmish_of_not_secondTeam (hreads : ReadsLast minPlayersPerTeam pools)
    (h : ¬q.SecondTeam bracket minPlayersPerTeam pools) :
    q.checkSkirmishForSameFaction bracket minPlayersPerTeam back pools = (q, none) := by
  by_cases hsearch : Searches minPlayersPerTeam pools
  · obtain ⟨g, hg⟩ : ∃ g, (pools (skirmishTeam minPlayersPerTeam pools)).selectedGroups.getLast? =
        some g := ⟨_, List.getLast?_eq_some_getLast (hreads hsearch)⟩
    rw [checkSkirmishForSameFaction, skirmishPool, if_neg hsearch]
    dsimp only
    rw [← skirmishTeam, hg, Option.getD_some, playerCount_addGroups]
    split_ifs with hend hcount
    · rfl
    · rfl
    · refine absurd ⟨hsearch, g, hg, ?_, not_not.1 hcount⟩ h
      exact List.idxOf_lt_length_iff.1 (Nat.lt_of_le_of_ne List.idxOf_le_length hend)
  · exact skirmish_of_not_searches hsearch

/-- With a second team, groups are moved to the other faction. -/
theorem skirmish_of_secondTeam (hmin : 0 < minPlayersPerTeam)
    (h : q.SecondTeam bracket minPlayersPerTeam pools) :
    (q.checkSkirmishForSameFaction bracket minPlayersPerTeam back pools).2 ≠ none ∧
      ¬Unmoved q (q.checkSkirmishForSameFaction bracket minPlayersPerTeam back pools).1 := by
  obtain ⟨hsearch, g, hg, hmem, hcount⟩ := h
  set queue := q.queuedGroups (bracket, .normal (skirmishTeam minPlayersPerTeam pools)) with hqueue
  have hin : queue.idxOf g ≠ queue.length := Nat.ne_of_lt (List.idxOf_lt_length_iff.2 hmem)
  rw [checkSkirmishForSameFaction, skirmishPool, if_neg hsearch]
  dsimp only
  rw [← skirmishTeam, ← hqueue, hg, Option.getD_some, if_neg hin, playerCount_addGroups,
    if_neg (not_not.2 hcount)]
  refine ⟨Option.some_ne_none _, fun hsame => ?_⟩
  have hempty : q.Bounded minPlayersPerTeam {} := bounded_empty
  have hbounded := hempty.addGroups (le_refl _) (queue.drop (queue.idxOf g + 1))
  have hgroups : (q.addGroups minPlayersPerTeam {}
      (queue.drop (queue.idxOf g + 1))).selectedGroups ≠ [] := by
    intro hnil
    have hzero := hbounded.playerCount_eq_zero hnil
    rw [playerCount_addGroups, hcount] at hzero
    omega
  have hlen := lt_length_foldl_moveToOther bracket (skirmishTeam minPlayersPerTeam pools)
    (queue.idxOf g) hgroups q
  rw [← hsame.2] at hlen
  exact absurd hlen (lt_irrefl _)

end Search

/-- The pools of the search for a normal match in an update. -/
def normalPools (q : BattlegroundQueue) (req : QueueUpdate)
    (minPlayersPerTeam maxPlayersPerTeam : ℕ) : SelectionPools × Bool :=
  q.checkNormalMatch req.bracketId minPlayersPerTeam maxPlayersPerTeam req.invitationType
    req.isTesting req.beyond fun _ => {}

/-- Where there is no normal match, the search for a skirmish reads the last group of a pool that
has one, and no group is moved when it fails or no battleground is created, if and only if the
alliance has a group in its pool or the horde no more players than needed, and there is a
battleground or no second team. With as many players needed as allowed, the first condition always
holds. -/
theorem skirmish_iff (q : BattlegroundQueue) (req : QueueUpdate)
    {minPlayersPerTeam maxPlayersPerTeam : ℕ} (hmin : 0 < minPlayersPerTeam)
    (hnormal : (q.normalPools req minPlayersPerTeam maxPlayersPerTeam).2 = false) :
    let pools := (q.normalPools req minPlayersPerTeam maxPlayersPerTeam).1
    ((ReadsLast minPlayersPerTeam pools ∧
        ((q.selectPools req true minPlayersPerTeam maxPlayersPerTeam).2 = none ∨
            req.newBattleground = none →
          Unmoved q (q.normalMatch req true minPlayersPerTeam maxPlayersPerTeam))) ↔
      ((pools .alliance).selectedGroups ≠ [] ∨ (pools .horde).playerCount ≤ minPlayersPerTeam) ∧
        (req.newBattleground ≠ none ∨ ¬q.SecondTeam req.bracketId minPlayersPerTeam pools)) ∧
      (maxPlayersPerTeam = minPlayersPerTeam →
        (pools .horde).playerCount ≤ minPlayersPerTeam) := by
  intro pools
  have hbounded : ∀ team, q.Bounded maxPlayersPerTeam (pools team) := fun team =>
    bounded_checkNormalMatch req.bracketId minPlayersPerTeam req.invitationType req.isTesting
      req.beyond team
  have hselect : q.selectPools req true minPlayersPerTeam maxPlayersPerTeam =
      q.checkSkirmishForSameFaction req.bracketId minPlayersPerTeam req.back pools := by
    rw [selectPools, ← normalPools, hnormal, if_neg Bool.false_ne_true, if_pos rfl]
  refine ⟨?_, fun hmax => hmax ▸ (hbounded .horde).2⟩
  -- what is read
  have hreads : ReadsLast minPlayersPerTeam pools ↔
      ((pools .alliance).selectedGroups ≠ [] ∨ (pools .horde).playerCount ≤ minPlayersPerTeam) := by
    unfold ReadsLast Searches skirmishTeam
    have hali := (hbounded .alliance).playerCount_eq_zero
    have hhorde := (hbounded .horde).playerCount_eq_zero
    constructor
    · intro h
      by_contra hnot
      rw [not_or, not_not] at hnot
      have hteam : ¬(pools .horde).playerCount = minPlayersPerTeam := by omega
      rw [if_neg hteam] at h
      exact h (by omega) hnot.1
    · intro h hsearch hnil
      split_ifs at hnil with hteam
      · have hzero := hhorde hnil
        omega
      · have hzero := hali hnil
        rcases h with h | h
        · exact h hnil
        · omega
  rw [hreads]
  refine and_congr_right fun hread => ?_
  rw [hselect]
  have hmatch : ∀ {found : BattlegroundQueue × Option SelectionPools},
      q.checkSkirmishForSameFaction req.bracketId minPlayersPerTeam req.back pools = found →
      found.2 = none ∨ req.newBattleground = none →
      q.normalMatch req true minPlayersPerTeam maxPlayersPerTeam = found.1 := by
    rintro ⟨q', found⟩ hfound hnone
    rw [normalMatch, hselect, hfound]
    rcases hnone with hnone | hnone
    · cases hnone
      rfl
    · rw [hnone]
      cases found <;> rfl
  have hrefl : Unmoved q q := ⟨fun _ => rfl, rfl⟩
  by_cases hsecond : q.SecondTeam req.bracketId minPlayersPerTeam pools
  · have hskirmish : (q.checkSkirmishForSameFaction req.bracketId minPlayersPerTeam req.back
        pools).2 ≠ none ∧ _ := skirmish_of_secondTeam hmin hsecond
    obtain ⟨hsome, hmoved⟩ := hskirmish
    rw [or_iff_left (not_not.2 hsecond)]
    constructor
    · intro h hnone
      have hunmoved := h (Or.inr hnone)
      rw [hmatch rfl (Or.inr hnone)] at hunmoved
      exact hmoved hunmoved
    · rintro hbg (hnone | hnone)
      · exact absurd hnone hsome
      · exact absurd hnone hbg
  · refine iff_of_true (fun hnone => ?_) (Or.inr hsecond)
    have hsame : q.checkSkirmishForSameFaction req.bracketId minPlayersPerTeam req.back pools =
        (q, none) := skirmish_of_not_secondTeam (hreads.2 hread) hsecond
    rw [hsame] at hnone
    rw [hmatch hsame hnone]
    exact hrefl

/-! ## Two factions -/

/-- Two groups of two players of one faction. -/
def queueOf (team : Team) : BattlegroundQueue where
  groups
    | 0 => some { players := {1, 2}, team := team, arenaType := 2 }
    | 1 => some { players := {3, 4}, team := team, arenaType := 2 }
    | _ => none
  nextGroup := 2
  queuedGroups i := if i = (0, .normal team) then [0, 1] else []

/-- An update for an arena of two against two, without a battleground. -/
def skirmishUpdate : QueueUpdate where
  bgTypeId := 6
  bracketId := 0
  arenaType := 2
  isRated := false
  arenaRating := 0
  now := 0
  freeSlotQueue := []
  bgTemplate := some { isArena := true, minPlayersPerTeam := 0, maxPlayersPerTeam := 2 }
  bracketEntry := true
  invitationType := 0
  premadeGroupWait := 0
  isTesting := false
  isArenaTesting := false
  maxRatingDifference := 0
  ratingDiscardTimer := 0
  premadeBattleground := none
  newBattleground := none
  beyond := []
  back := 0

/-- The two groups of the alliance. -/
theorem skirmish_iff_alliance :
    let pools := ((queueOf .alliance).normalPools skirmishUpdate 2 2).1
    ((ReadsLast 2 pools ∧
        (((queueOf .alliance).selectPools skirmishUpdate true 2 2).2 = none ∨
            skirmishUpdate.newBattleground = none →
          Unmoved (queueOf .alliance) ((queueOf .alliance).normalMatch skirmishUpdate true 2 2))) ↔
      ((pools .alliance).selectedGroups ≠ [] ∨ (pools .horde).playerCount ≤ 2) ∧
        (skirmishUpdate.newBattleground ≠ none ∨
          ¬(queueOf .alliance).SecondTeam skirmishUpdate.bracketId 2 pools)) ∧
      (2 = 2 → (pools .horde).playerCount ≤ 2) :=
  skirmish_iff (queueOf .alliance) skirmishUpdate (by decide) (by decide)

/-- With arenas in testing, the last group of the empty pool of the alliance is read for a group of
two of the horde. Two groups of the alliance are a skirmish, and one of them stays with the horde
when no battleground is created. -/
theorem skirmish_fails :
    (((queueOf .horde).normalPools skirmishUpdate 1 2).2 = false ∧
        ¬ReadsLast 1 ((queueOf .horde).normalPools skirmishUpdate 1 2).1) ∧
      ((queueOf .alliance).normalPools skirmishUpdate 2 2).2 = false ∧
        skirmishUpdate.newBattleground = none ∧
        (((queueOf .alliance).normalMatch skirmishUpdate true 2 2).info 1).team = .horde ∧
        ((queueOf .alliance).normalMatch skirmishUpdate true 2 2).queuedGroups
          (0, .normal .alliance) = [0] := by
  refine ⟨⟨by decide, fun h => ?_⟩, by decide, rfl, by decide, by decide⟩
  exact h (by decide) (by decide)

end BattlegroundQueue

end MistyWorld
