import Mathlib.Algebra.BigOperators.Group.List.Basic
import Mathlib.Data.Finset.Card
import Mathlib.Data.Finset.Max
import MistyWorld.Queues
import MistyWorld.Run
import MistyWorld.Word

/-!
# Battleground queues

A `BattlegroundQueue` keeps the groups that wait for a battleground or an arena, and maps every
queued player to his group. `m_QueuedGroups` has four queues for each bracket : premade groups
and rated teams, or others, of each faction. An update invites groups to running battlegrounds,
and looks for a premade match, a normal match, a skirmish within one faction or a rated arena
match. Some of these put a group into another queue, and into another faction.

The loop that fills running battlegrounds is given the rounds it takes at most
(`Filling.balance_start`). Groups are addresses. An iterator of a queue is a position in it. The
queues are of type `deque` : to erase an element between others takes the iterators away, and a queue
is `undefined` when one is used after that. Battlegrounds, invitations, waiting times, announcements
and the rating lost by one who leaves are left out.
-/

open Function List Machine Queues Word

namespace MistyWorld

/-- The factions. -/
inductive Team
  | alliance
  | horde
deriving DecidableEq

/-- The other faction. -/
def Team.other : Team → Team
  | alliance => horde
  | horde => alliance

theorem Team.other_ne : ∀ team : Team, team.other ≠ team
  | alliance => by decide
  | horde => by decide

/-- `BattlegroundQueueGroupTypes` -/
inductive QueueGroupType
  | premade (team : Team)
  | normal (team : Team)
deriving DecidableEq

/-- The faction of a queue. -/
def QueueGroupType.team : QueueGroupType → Team
  | premade team | normal team => team

/-- `BattlegroundBracketId`, below `MAX_BATTLEGROUND_BRACKETS`. -/
abbrev BracketId := Fin 16

instance neZeroBrackets : NeZero 16 :=
  ⟨by decide⟩

/-- `GroupQueueInfo` -/
structure GroupQueueInfo where
  players : Finset ℕ := ∅
  team : Team := .alliance
  bgTypeId : ℕ := 0
  isRated : Bool := false
  arenaType : ℕ := 0
  arenaTeamId : ℕ := 0
  joinTime : ℕ := 0
  removeInviteTime : ℕ := 0
  isInvitedToBGInstanceGUID : ℕ := 0
  arenaTeamRating : ℕ := 0
  arenaMatchmakerRating : ℕ := 0
  opponentsTeamRating : ℕ := 0
  opponentsMatchmakerRating : ℕ := 0

/-- A queue of `m_QueuedGroups`. -/
abbrev QueueIndex := BracketId × QueueGroupType

/-- The queues. `groups` has what is at an address, and `nextGroup` is the next one. Nothing is known
of what is `undefined`. -/
structure BattlegroundQueue where
  undefined : Bool := false
  groups : ℕ → Option GroupQueueInfo := fun _ => none
  nextGroup : ℕ := 0
  queuedPlayers : ℕ → Option ℕ := fun _ => none
  queuedGroups : QueueIndex → List ℕ := fun _ => []

/-! ## Selection pools -/

/-- `SelectionPool` -/
structure SelectionPool where
  selectedGroups : List ℕ := []
  playerCount : ℕ := 0

/-- `m_SelectionPools` -/
abbrev SelectionPools := Team → SelectionPool

namespace SelectionPool

/-- One step of the search of `KickGroup`, from the best position so far and `found`. -/
def kickStep (players : ℕ → ℕ) (size : ℕ) (groups : List ℕ) (best : ℕ × Bool) (itr : ℕ) :
    ℕ × Bool :=
  if |(players (groups.getD itr 0) : ℤ) - size| ≤ 1 then (itr, true)
  else if !best.2 && players (groups.getD best.1 0) ≤ players (groups.getD itr 0) then
    (itr, best.2)
  else best

/-- The position of the group that `KickGroup` erases. -/
def groupToKick (players : ℕ → ℕ) (size : ℕ) (groups : List ℕ) : ℕ :=
  ((List.range groups.length).foldl (kickStep players size groups) (0, false)).1

/-- `SelectionPool::KickGroup`, where `players` are the players of a group. -/
def kickGroup (pool : SelectionPool) (players : ℕ → ℕ) (size : ℕ) : SelectionPool × Bool :=
  if pool.playerCount ≠ 0 then
    let itr := groupToKick players size pool.selectedGroups
    let kicked := players (pool.selectedGroups.getD itr 0)
    ({ selectedGroups := pool.selectedGroups.eraseIdx itr
       playerCount := pool.playerCount - kicked }, size + 1 < kicked)
  else (pool, true)

/-- `SelectionPool::AddGroup` -/
def addGroup (pool : SelectionPool) (g : ℕ) (ginfo : GroupQueueInfo) (desiredCount : ℕ) :
    SelectionPool × Bool :=
  if ginfo.isInvitedToBGInstanceGUID = 0 ∧
      pool.playerCount + ginfo.players.card ≤ desiredCount then
    ({ selectedGroups := pool.selectedGroups ++ [g]
       playerCount := pool.playerCount + ginfo.players.card }, true)
  else (pool, pool.playerCount < desiredCount)

end SelectionPool

namespace BattlegroundQueue

/-- What is at an address. -/
def info (q : BattlegroundQueue) (g : ℕ) : GroupQueueInfo :=
  (q.groups g).getD {}

def size (q : BattlegroundQueue) (g : ℕ) : ℕ :=
  (q.info g).players.card

def isInvited (q : BattlegroundQueue) (g : ℕ) : Bool :=
  (q.info g).isInvitedToBGInstanceGUID ≠ 0

/-- A group is written. -/
def modify (q : BattlegroundQueue) (g : ℕ) (f : GroupQueueInfo → GroupQueueInfo) :
    BattlegroundQueue :=
  { q with groups := update q.groups g ((q.groups g).map f) }

/-- A queue is written. -/
def setQueue (q : BattlegroundQueue) (i : QueueIndex) (queue : List ℕ) : BattlegroundQueue :=
  { q with queuedGroups := update q.queuedGroups i queue }

end BattlegroundQueue

/-! ## Joining and leaving -/

/-- The arguments of `AddGroup`, with the faction of the leader, the members of the group, if
there is one, and the time. -/
structure QueueJoin where
  leader : ℕ
  leaderTeam : Team
  grp : Option (List ℕ)
  bgTypeId : ℕ
  bracketId : BracketId
  arenaType : ℕ
  isRated : Bool
  isPremade : Bool
  arenaRating : ℕ
  matchmakerRating : ℕ
  arenateamid : ℕ
  now : ℕ

namespace QueueJoin

/-- Those who join. -/
def members (join : QueueJoin) : List ℕ :=
  match join.grp with
  | some members => members
  | none => [join.leader]

/-- The queue of the group. -/
def index (join : QueueJoin) : QueueIndex :=
  (join.bracketId,
    if !join.isRated && !join.isPremade then .normal join.leaderTeam else .premade join.leaderTeam)

/-- The new group. -/
def ginfo (join : QueueJoin) : GroupQueueInfo where
  players := join.members.toFinset
  team := join.leaderTeam
  bgTypeId := join.bgTypeId
  isRated := join.isRated
  arenaType := join.arenaType
  arenaTeamId := join.arenateamid
  joinTime := join.now
  arenaTeamRating := join.arenaRating
  arenaMatchmakerRating := join.matchmakerRating

end QueueJoin

namespace BattlegroundQueue

/-- `AddGroup` -/
def addGroup (q : BattlegroundQueue) (join : QueueJoin) : BattlegroundQueue where
  undefined := q.undefined
  groups := update q.groups q.nextGroup (some join.ginfo)
  nextGroup := q.nextGroup + 1
  queuedPlayers :=
    join.members.foldl (fun players guid => update players guid (some q.nextGroup))
      q.queuedPlayers
  queuedGroups :=
    update q.queuedGroups join.index (q.queuedGroups join.index ++ [q.nextGroup])

/-- Where `RemovePlayer` finds a group : in the highest bracket, and of the two queues of the
faction in the later one. -/
def findGroup (q : BattlegroundQueue) (g : ℕ) (team : Team) : Option (QueueIndex × ℕ) :=
  (List.finRange 16).reverse.findSome? fun bracket =>
    [QueueGroupType.normal team, .premade team].findSome? fun type =>
      let itr := (q.queuedGroups (bracket, type)).idxOf g
      if itr < (q.queuedGroups (bracket, type)).length then some ((bracket, type), itr) else none

/-- A player is erased from his group and from the map of players. -/
def dropPlayer (q : BattlegroundQueue) (g guid : ℕ) : BattlegroundQueue :=
  { q.modify g fun ginfo => { ginfo with players := ginfo.players.erase guid } with
    queuedPlayers := update q.queuedPlayers guid none }

/-- A group is erased from its queue and deleted. -/
def deleteGroup (q : BattlegroundQueue) (g : ℕ) (i : QueueIndex) (itr : ℕ) :
    BattlegroundQueue :=
  { q.setQueue i ((q.queuedGroups i).eraseIdx itr) with
    groups := update q.groups g none }

/-- `RemovePlayer`, which calls itself for the next player of a rated team. -/
def removeLoop : ℕ → BattlegroundQueue → ℕ → BattlegroundQueue
  | 0, q, _ => q
  | rounds + 1, q, guid =>
    match q.queuedPlayers guid with
    | none => q
    | some g =>
      match q.findGroup g (q.info g).team with
      | none => q
      | some (i, itr) =>
        let q := q.dropPlayer g guid
        if hne : (q.info g).players.Nonempty then
          if !q.isInvited g && (q.info g).isRated then
            removeLoop rounds q ((q.info g).players.min' hne)
          else q
        else q.deleteGroup g i itr

/-- `RemovePlayer` : every call of itself is for one player more. -/
def removePlayer (q : BattlegroundQueue) (guid : ℕ) : BattlegroundQueue :=
  match q.queuedPlayers guid with
  | none => q
  | some g => removeLoop (q.size g) q guid

/-- `INVITE_ACCEPT_WAIT_TIME` -/
def inviteAcceptWaitTime : ℕ := 90000

/-- `InviteGroupToBG` -/
def inviteGroupToBG (q : BattlegroundQueue) (g instanceID : ℕ) (side : Team) (now : ℕ) :
    BattlegroundQueue :=
  q.modify g fun ginfo =>
    if ginfo.isInvitedToBGInstanceGUID = 0 then
      { ginfo with
        team := side
        isInvitedToBGInstanceGUID := instanceID
        removeInviteTime := toU32 (now + inviteAcceptWaitTime) }
    else { ginfo with team := side }

/-- The selected groups are invited. -/
def inviteSelected (q : BattlegroundQueue) (pools : SelectionPools) (instanceID now : ℕ) :
    BattlegroundQueue :=
  ((pools .alliance).selectedGroups ++ (pools .horde).selectedGroups).foldl
    (fun q g => q.inviteGroupToBG g instanceID (q.info g).team now) q

/-! ## Running battlegrounds -/

/-- Groups from an iterator on are added until the pool is full. What is left is returned. -/
def fillPool (q : BattlegroundQueue) (desiredCount : ℕ) :
    SelectionPool → List ℕ → SelectionPool × List ℕ
  | pool, [] => (pool, [])
  | pool, g :: rest =>
    let added := pool.addGroup g (q.info g) desiredCount
    if added.2 then fillPool q desiredCount added.1 rest else (added.1, g :: rest)

/-- The pools of `FillPlayersToBG`, and the groups from its iterators on. -/
structure Filling where
  pools : SelectionPools
  rest : Team → List ℕ

namespace Filling

/-- A pool is filled. -/
def fill (q : BattlegroundQueue) (s : Filling) (team : Team) (desiredCount : ℕ) : Filling where
  pools := update s.pools team (q.fillPool desiredCount (s.pools team) (s.rest team)).1
  rest := update s.rest team (q.fillPool desiredCount (s.pools team) (s.rest team)).2

/-- A group of a pool is kicked. -/
def kick (q : BattlegroundQueue) (s : Filling) (team : Team) (size : ℕ) : Filling :=
  { s with pools := update s.pools team ((s.pools team).kickGroup q.size size).1 }

/-- `diffAli` and `diffHorde` -/
def diff (free : Team → ℕ) (s : Filling) (team : Team) : ℤ :=
  free team - (s.pools team).playerCount

/-- The condition of the loop of `FillPlayersToBG`. -/
def Unbalanced (free : Team → ℕ) (s : Filling) : Prop :=
  1 < |s.diff free .alliance - s.diff free .horde| ∧
    (0 < (s.pools .horde).playerCount ∨ 0 < (s.pools .alliance).playerCount)

instance (free : Team → ℕ) (s : Filling) : Decidable (s.Unbalanced free) :=
  inferInstanceAs (Decidable (_ ∧ _))

/-- A round of the loop : from the pool of the faction with less room a group is kicked, and if
that leaves it empty, from the other one, or the loop ends. -/
def round (q : BattlegroundQueue) (free : Team → ℕ) (s : Filling) : Filling × Bool :=
  let team : Team := if s.diff free .alliance < s.diff free .horde then .alliance else .horde
  let size := (s.diff free team.other - s.diff free team).toNat
  let kicked := s.kick q team size
  let s' := if ((s.pools team).kickGroup q.size size).2 then
      kicked.fill q team (free team - s.diff free team.other).toNat
    else kicked
  if (s'.pools team).playerCount = 0 then
    if free team ≤ s.diff free team.other + 1 then (s', false)
    else (s'.kick q team.other size, true)
  else (s', true)

/-- The loop of `FillPlayersToBG`. -/
def balance (q : BattlegroundQueue) (free : Team → ℕ) : ℕ → Filling → Filling
  | 0, s => s
  | rounds + 1, s =>
    if s.Unbalanced free then
      let next := s.round q free
      if next.2 then balance q free rounds next.1 else next.1
    else s

/-- A bound of the rounds : each takes a group from a pool or from an iterator. -/
def rounds (s : Filling) : ℕ :=
  2 * (s.rest .alliance).length + (s.pools .alliance).selectedGroups.length +
    (2 * (s.rest .horde).length + (s.pools .horde).selectedGroups.length)

/-- Both pools are filled from the normal queues. -/
def start (q : BattlegroundQueue) (bracket : BracketId) (free : Team → ℕ) : Filling :=
  let empty : Filling := ⟨fun _ => {}, fun team => q.queuedGroups (bracket, .normal team)⟩
  (empty.fill q .alliance (free .alliance)).fill q .horde (free .horde)

end Filling

/-- `FillPlayersToBG`, with the free slots of the battleground. -/
def fillPlayersToBG (q : BattlegroundQueue) (bracket : BracketId) (free : Team → ℕ)
    (invitationType : ℕ) : SelectionPools :=
  let filled := Filling.start q bracket free
  if invitationType = 0 then filled.pools else (filled.balance q free filled.rounds).pools

end BattlegroundQueue

/-! ## The loop ends -/

namespace SelectionPool

/-- The player count is that of the selected groups. -/
def Counted (players : ℕ → ℕ) (pool : SelectionPool) : Prop :=
  pool.playerCount = (pool.selectedGroups.map players).sum

theorem groupToKick_lt (players : ℕ → ℕ) (size : ℕ) {groups : List ℕ} (hne : groups ≠ []) :
    groupToKick players size groups < groups.length := by
  have hfold : ∀ (l : List ℕ) (best : ℕ × Bool), (∀ itr ∈ l, itr < groups.length) →
      best.1 < groups.length → (l.foldl (kickStep players size groups) best).1 < groups.length := by
    intro l
    induction l with
    | nil => exact fun _ _ hbest => hbest
    | cons itr l ih =>
      intro best hl hbest
      refine ih _ (fun itr' hitr' => hl itr' (mem_cons_of_mem itr hitr')) ?_
      rw [kickStep]
      split
      · exact hl itr mem_cons_self
      · split
        · exact hl itr mem_cons_self
        · exact hbest
  exact hfold _ _ (fun _ hitr => mem_range.1 hitr) (length_pos_iff.2 hne)

variable {players : ℕ → ℕ} {pool : SelectionPool}

theorem Counted.ne_nil (h : Counted players pool) (hcount : pool.playerCount ≠ 0) :
    pool.selectedGroups ≠ [] := by
  rintro hnil
  rw [Counted, hnil] at h
  exact hcount h

theorem Counted.kickGroup (h : Counted players pool) (size : ℕ) :
    Counted players (pool.kickGroup players size).1 ∧
      (pool.kickGroup players size).1.selectedGroups.length ≤ pool.selectedGroups.length ∧
      (pool.playerCount ≠ 0 →
        (pool.kickGroup players size).1.selectedGroups.length < pool.selectedGroups.length) := by
  rw [SelectionPool.kickGroup]
  split
  next hcount =>
    have hlt := groupToKick_lt players size (h.ne_nil hcount)
    dsimp only
    generalize groupToKick players size pool.selectedGroups = itr at hlt
    have hsum := ((getElem_cons_eraseIdx_perm hlt).map players).sum_eq
    rw [map_cons, sum_cons, ← h] at hsum
    have hlen := length_eraseIdx_of_lt hlt
    refine ⟨?_, by omega, fun _ => by omega⟩
    rw [Counted, getD_eq_getElem?_getD, List.getElem?_eq_getElem hlt, Option.getD_some]
    dsimp only
    omega
  next hcount =>
    exact ⟨h, Nat.le_refl _, fun hne => absurd hne hcount⟩

end SelectionPool

namespace BattlegroundQueue

open SelectionPool

theorem fillPool_spec (q : BattlegroundQueue) (desiredCount : ℕ) :
    ∀ (l : List ℕ) (pool : SelectionPool), Counted q.size pool →
      Counted q.size (q.fillPool desiredCount pool l).1 ∧
      (q.fillPool desiredCount pool l = (pool, l) ∨
        2 * (q.fillPool desiredCount pool l).2.length +
          (q.fillPool desiredCount pool l).1.selectedGroups.length <
            2 * l.length + pool.selectedGroups.length)
  | [], pool, h => ⟨h, .inl rfl⟩
  | g :: l, pool, h => by
    rw [fillPool]
    by_cases hadd : (q.info g).isInvitedToBGInstanceGUID = 0 ∧
        pool.playerCount + (q.info g).players.card ≤ desiredCount
    · rw [SelectionPool.addGroup, if_pos hadd]
      dsimp only
      have hcounted : Counted q.size
          { selectedGroups := pool.selectedGroups ++ [g]
            playerCount := pool.playerCount + (q.info g).players.card } := by
        rw [Counted] at h ⊢
        simp [h, size]
      obtain ⟨hfill, hless⟩ := fillPool_spec q desiredCount l _ hcounted
      refine ⟨hfill, .inr ?_⟩
      rw [if_pos rfl]
      rcases hless with heq | hlt
      · simp [heq]
        omega
      · simp only [length_append, length_singleton] at hlt
        rw [length_cons]
        omega
    · rw [SelectionPool.addGroup, if_neg hadd]
      dsimp only
      split
      · obtain ⟨hfill, hless⟩ := fillPool_spec q desiredCount l pool h
        refine ⟨hfill, .inr ?_⟩
        rw [length_cons]
        rcases hless with heq | hlt
        · simp [heq]
        · omega
      · exact ⟨h, .inl rfl⟩

namespace Filling

/-- The pools are counted. -/
def Counted (q : BattlegroundQueue) (s : Filling) : Prop :=
  ∀ team, (s.pools team).Counted q.size

/-- What is left of a faction, in its pool and from its iterator on. -/
def left (s : Filling) (team : Team) : ℕ :=
  2 * (s.rest team).length + (s.pools team).selectedGroups.length

variable {q : BattlegroundQueue} {s : Filling} {team : Team}

theorem rounds_eq (s : Filling) (team : Team) : s.rounds = s.left team + s.left team.other := by
  cases team with
  | alliance => rfl
  | horde => exact Nat.add_comm _ _

theorem left_kick (q : BattlegroundQueue) (s : Filling) (team : Team) (size : ℕ) :
    (s.kick q team size).left team = 2 * (s.rest team).length +
      ((s.pools team).kickGroup q.size size).1.selectedGroups.length ∧
    (s.kick q team size).left team.other = s.left team.other := by
  simp [left, kick, Team.other_ne]

theorem left_fill (q : BattlegroundQueue) (s : Filling) (team : Team) (desiredCount : ℕ) :
    (s.fill q team desiredCount).left team =
      2 * (q.fillPool desiredCount (s.pools team) (s.rest team)).2.length +
        (q.fillPool desiredCount (s.pools team) (s.rest team)).1.selectedGroups.length ∧
    (s.fill q team desiredCount).left team.other = s.left team.other := by
  simp [left, fill, Team.other_ne]

section

variable (h : s.Counted q)
include h

theorem Counted.update {pool : SelectionPool} {rest : Team → List ℕ} (hpool : pool.Counted q.size) :
    Counted q ⟨update s.pools team pool, rest⟩ := by
  intro team'
  dsimp only
  by_cases hteam : team' = team
  · rw [hteam, update_self]
    exact hpool
  · rw [update_of_ne hteam]
    exact h team'

theorem Counted.kick (team : Team) (size : ℕ) :
    (s.kick q team size).Counted q ∧ (s.kick q team size).rounds ≤ s.rounds ∧
      ((s.pools team).playerCount ≠ 0 → (s.kick q team size).rounds < s.rounds) := by
  obtain ⟨hcounted, hle, hlt⟩ := (h team).kickGroup size
  obtain ⟨hself, hother⟩ := left_kick q s team size
  have hleft : s.left team = 2 * (s.rest team).length + (s.pools team).selectedGroups.length := rfl
  rw [rounds_eq _ team, rounds_eq s team, hother, hself]
  refine ⟨h.update hcounted, by omega, fun hcount => ?_⟩
  have hless := hlt hcount
  omega

theorem Counted.fill (team : Team) (desiredCount : ℕ) :
    (s.fill q team desiredCount).Counted q ∧
      (s.fill q team desiredCount = s ∨ (s.fill q team desiredCount).rounds < s.rounds) := by
  obtain ⟨hcounted, hless⟩ := fillPool_spec q desiredCount (s.rest team) (s.pools team) (h team)
  refine ⟨h.update hcounted, ?_⟩
  rcases hless with heq | hlt
  · refine .inl ?_
    rw [Filling.fill, heq, update_eq_self, update_eq_self]
  · obtain ⟨hself, hother⟩ := left_fill q s team desiredCount
    have hleft : s.left team = 2 * (s.rest team).length + (s.pools team).selectedGroups.length :=
      rfl
    rw [rounds_eq _ team, rounds_eq s team, hother, hself]
    exact .inr (by omega)

/-- A round leaves fewer groups, or ends the loop. -/
theorem Counted.round {free : Team → ℕ} (hs : s.Unbalanced free) :
    (s.round q free).1.Counted q ∧
      ((s.round q free).2 = true → (s.round q free).1.rounds < s.rounds) := by
  rw [Filling.round]
  generalize (if s.diff free .alliance < s.diff free .horde then Team.alliance else .horde) = team
  generalize (s.diff free team.other - s.diff free team).toNat = size
  generalize (free team - s.diff free team.other).toNat = desiredCount
  obtain ⟨hkick, hle, hlt⟩ := h.kick team size
  obtain ⟨hfill, hfilled⟩ := hkick.fill team desiredCount
  have hsome : (s.pools team).playerCount = 0 → (s.pools team.other).playerCount ≠ 0 := by
    have hpos := hs.2
    cases team <;> simp only [Team.other] <;> omega
  have hkicked : (s.pools team).playerCount = 0 → s.kick q team size = s := fun hcount => by
    rw [Filling.kick, SelectionPool.kickGroup, if_neg (not_not.2 hcount), update_eq_self]
  -- with nobody in the pool, nobody is kicked, but then the iterator moves or the other pool counts
  have hless : ∀ s' : Filling, (s' = s.kick q team size ∨
      s'.rounds < (s.kick q team size).rounds) →
      s'.rounds < s.rounds ∨ (s' = s ∧ (s.pools team).playerCount = 0) := by
    intro s' hcase
    by_cases hcount : (s.pools team).playerCount = 0
    · rcases hcase with rfl | hcase
      · exact .inr ⟨hkicked hcount, hcount⟩
      · exact .inl (by omega)
    · have hfewer := hlt hcount
      rcases hcase with rfl | hcase
      · exact .inl hfewer
      · exact .inl (by omega)
  have hs' : ∀ more : Bool, ∃ s', (if more then (s.kick q team size).fill q team desiredCount
      else s.kick q team size) = s' ∧ s'.Counted q ∧
      (s'.rounds < s.rounds ∨ (s' = s ∧ (s.pools team).playerCount = 0)) := by
    rintro (_ | _)
    · exact ⟨_, rfl, hkick, hless _ (.inl rfl)⟩
    · exact ⟨_, rfl, hfill, hless _ hfilled⟩
  obtain ⟨s', heq, hcounted, hcase⟩ := hs' ((s.pools team).kickGroup q.size size).2
  rw [heq]
  split
  next hzero =>
    split
    · exact ⟨hcounted, fun hfalse => absurd hfalse (by simp)⟩
    · obtain ⟨hkicked', hle', hlt'⟩ := hcounted.kick team.other size
      refine ⟨hkicked', fun _ => ?_⟩
      dsimp only
      rcases hcase with hcase | ⟨rfl, hcount⟩
      · omega
      · exact hlt' (hsome hcount)
  next hpos =>
    refine ⟨hcounted, fun _ => hcase.resolve_right ?_⟩
    rintro ⟨rfl, hcount⟩
    exact hpos hcount

/-- The loop has ended when no rounds are left. -/
theorem Counted.not_unbalanced (hn : s.rounds = 0) (free : Team → ℕ) : ¬ s.Unbalanced free := by
  rintro ⟨-, hpos⟩
  have hempty : ∀ team, (s.pools team).playerCount = 0 := fun team => by
    by_contra hcount
    have hlen := length_pos_iff.2 ((h team).ne_nil hcount)
    rw [rounds_eq s team, left] at hn
    omega
  rw [hempty, hempty] at hpos
  omega

end

/-- More rounds change nothing : the loop has ended. -/
theorem Counted.balance_eq {free : Team → ℕ} : ∀ {n : ℕ} {s : Filling}, s.Counted q →
    s.rounds ≤ n → s.balance q free (n + 1) = s.balance q free n
  | 0, s, h, hn => by
    rw [balance, balance, if_neg (h.not_unbalanced (Nat.le_zero.1 hn) free)]
  | n + 1, s, h, hn => by
    rw [balance, balance]
    split
    next hs =>
      obtain ⟨hcounted, hless⟩ := h.round hs
      dsimp only
      split
      next hnext =>
        have hlt := hless hnext
        exact hcounted.balance_eq (by omega)
      next => rfl
    next => rfl

/-- The loop of `FillPlayersToBG` ends in the rounds it is given. -/
theorem balance_start (bracket : BracketId) (free : Team → ℕ) (n : ℕ) :
    (start q bracket free).balance q free ((start q bracket free).rounds + n) =
      (start q bracket free).balance q free (start q bracket free).rounds := by
  have hempty : Counted q ⟨fun _ => {}, fun team => q.queuedGroups (bracket, .normal team)⟩ :=
    fun _ => rfl
  have hstart : (start q bracket free).Counted q :=
    ((hempty.fill .alliance (free .alliance)).1.fill .horde (free .horde)).1
  induction n with
  | zero => rfl
  | succ n ih => exact (hstart.balance_eq (Nat.le_add_right _ _)).trans ih

end Filling

/-! ## New battlegrounds -/

/-- The groups of a queue that are not invited are added to a pool until it is full. -/
def addGroups (q : BattlegroundQueue) (desiredCount : ℕ) : SelectionPool → List ℕ → SelectionPool
  | pool, [] => pool
  | pool, g :: rest =>
    if q.isInvited g then addGroups q desiredCount pool rest
    else
      let added := pool.addGroup g (q.info g) desiredCount
      if added.2 then addGroups q desiredCount added.1 rest else added.1

/-- The first group of a premade queue is moved to the normal one, when its time is over or it is
too small. -/
def moveToNormal (q : BattlegroundQueue) (bracket : BracketId) (timeBefore minPlayersPerTeam : ℕ)
    (team : Team) : BattlegroundQueue :=
  match q.queuedGroups (bracket, .premade team) with
  | [] => q
  | g :: rest =>
    if !q.isInvited g &&
        ((q.info g).joinTime < timeBefore || q.size g < minPlayersPerTeam) then
      (q.setQueue (bracket, .normal team) (g :: q.queuedGroups (bracket, .normal team))).setQueue
        (bracket, .premade team) rest
    else q

/-- `CheckPremadeMatch`, which sets the selection pools or moves groups. -/
def checkPremadeMatch (q : BattlegroundQueue) (bracket : BracketId) (timeBefore : ℕ)
    (minPlayersPerTeam maxPlayersPerTeam : ℕ) (pools : SelectionPools) :
    BattlegroundQueue × Option SelectionPools :=
  let group := fun team =>
    (q.queuedGroups (bracket, .premade team)).find? fun g => !q.isInvited g
  match group .alliance, group .horde with
  | some aliGroup, some hordeGroup =>
    let ali := ((pools .alliance).addGroup aliGroup (q.info aliGroup) maxPlayersPerTeam).1
    let horde := ((pools .horde).addGroup hordeGroup (q.info hordeGroup) maxPlayersPerTeam).1
    let maxPlayers := min ali.playerCount horde.playerCount
    (q, some fun
      | .alliance => q.addGroups maxPlayers ali (q.queuedGroups (bracket, .normal .alliance))
      | .horde => q.addGroups maxPlayers horde (q.queuedGroups (bracket, .normal .horde)))
  | _, _ =>
    ((q.moveToNormal bracket timeBefore minPlayersPerTeam .alliance).moveToNormal bracket
      timeBefore minPlayersPerTeam .horde, none)

/-- Groups that are not invited are added until there are enough players. The groups from the
iterator on are returned. -/
def addUntil (q : BattlegroundQueue) (minPlayers maxPlayers : ℕ) :
    SelectionPool → List ℕ → SelectionPool × List ℕ
  | pool, [] => (pool, [])
  | pool, g :: rest =>
    if q.isInvited g then addUntil q minPlayers maxPlayers pool rest
    else
      let pool := (pool.addGroup g (q.info g) maxPlayers).1
      if minPlayers ≤ pool.playerCount then (pool, g :: rest)
      else addUntil q minPlayers maxPlayers pool rest

/-- `CheckNormalMatch`. What its iterator reads when it is moved beyond the end of a queue is
`beyond`. -/
def checkNormalMatch (q : BattlegroundQueue) (bracket : BracketId) (minPlayers maxPlayers : ℕ)
    (invitationType : ℕ) (isTesting : Bool) (beyond : List ℕ) (pools : SelectionPools) :
    SelectionPools × Bool :=
  let itr := fun team =>
    q.addUntil minPlayers maxPlayers (pools team) (q.queuedGroups (bracket, .normal team))
  let pools : SelectionPools := fun team => (itr team).1
  let j : Team :=
    if (pools .horde).playerCount < (pools .alliance).playerCount then .horde else .alliance
  let enough := fun pools : SelectionPools =>
    decide (minPlayers ≤ (pools .alliance).playerCount ∧ minPlayers ≤ (pools .horde).playerCount)
  let ready := fun pools : SelectionPools =>
    isTesting && (0 < (pools .alliance).playerCount || 0 < (pools .horde).playerCount) ||
      enough pools
  if invitationType ≠ 0 ∧ enough pools then
    let next := match (itr j).2 with
      | _ :: rest => rest
      | [] => beyond
    let pools := update pools j
      (q.addGroups (pools j.other).playerCount (pools j) next)
    if 2 < |((pools .horde).playerCount : ℤ) - (pools .alliance).playerCount| then (pools, false)
    else (pools, ready pools)
  else (pools, ready pools)

/-- A group after `itr_team` is moved to the queue of the other faction. The position of `itr_team` is
there until a group is erased that is not the last one. -/
def moveToOther (bracket : BracketId) (team : Team) (s : BattlegroundQueue × Option ℕ) (g : ℕ) :
    BattlegroundQueue × Option ℕ :=
  match s.2 with
  | none => ({ s.1 with undefined := true }, none)
  | some itrTeam =>
    let q := s.1.modify g fun ginfo => { ginfo with team := team.other }
    let q := q.setQueue (bracket, .normal team.other)
      (g :: q.queuedGroups (bracket, .normal team.other))
    let queue := q.queuedGroups (bracket, .normal team)
    let behind := queue.drop (itrTeam + 1)
    (q.setQueue (bracket, .normal team) (queue.take (itrTeam + 1) ++ behind.erase g),
      if behind.idxOf g + 1 < behind.length then none else some itrTeam)

/-- The second team of a skirmish, where `back` is what an empty pool has as its last group. It is
given with the faction and the position of `itr_team`. -/
def skirmishPool (q : BattlegroundQueue) (bracket : BracketId) (minPlayersPerTeam back : ℕ)
    (pools : SelectionPools) : Option (Team × ℕ × SelectionPool) :=
  if (pools .alliance).playerCount < minPlayersPerTeam ∧
      (pools .horde).playerCount < minPlayersPerTeam then none
  else
    let team : Team :=
      if (pools .horde).playerCount = minPlayersPerTeam then .horde else .alliance
    let ginfo := (pools team).selectedGroups.getLast?.getD back
    let queue := q.queuedGroups (bracket, .normal team)
    let itrTeam := queue.idxOf ginfo
    if itrTeam = queue.length then none
    else
      let pool := q.addGroups minPlayersPerTeam {} (queue.drop (itrTeam + 1))
      if pool.playerCount ≠ minPlayersPerTeam then none
      else some (team, itrTeam, pool)

/-- `CheckSkirmishForSameFaction` -/
def checkSkirmishForSameFaction (q : BattlegroundQueue) (bracket : BracketId)
    (minPlayersPerTeam back : ℕ) (pools : SelectionPools) :
    BattlegroundQueue × Option SelectionPools :=
  match q.skirmishPool bracket minPlayersPerTeam back pools with
  | none => (q, none)
  | some (team, itrTeam, pool) =>
    ((pool.selectedGroups.foldl (moveToOther bracket team) (q, some itrTeam)).1,
      some (update pools team.other pool))

/-! ## Rated arenas -/

/-- The rating to look for : that of the team that waits for the longest time, without an own. -/
def frontRating (q : BattlegroundQueue) (bracket : BracketId) (arenaRating : ℕ) : Option ℕ :=
  if arenaRating ≠ 0 then some arenaRating
  else
    match (q.queuedGroups (bracket, .premade .alliance)).head?,
      (q.queuedGroups (bracket, .premade .horde)).head? with
    | some front1, some front2 =>
      if (q.info front1).joinTime < (q.info front2).joinTime then
        some (q.info front1).arenaMatchmakerRating
      else some (q.info front2).arenaMatchmakerRating
    | some front1, none => some (q.info front1).arenaMatchmakerRating
    | none, some front2 => some (q.info front2).arenaMatchmakerRating
    | none, none => none

/-- Whether a team may play : it is not invited, and it has a rating in the range or has waited for
long. -/
def fitsRating (q : BattlegroundQueue) (arenaMinRating arenaMaxRating discardTime : ℕ)
    (g : ℕ) : Bool :=
  !q.isInvited g &&
    (arenaMinRating ≤ (q.info g).arenaMatchmakerRating &&
        (q.info g).arenaMatchmakerRating ≤ arenaMaxRating ||
      (q.info g).joinTime < discardTime)

/-- `itr_teams`, groups with their positions : one of each queue, or two of one queue that are not
of the same arena team. -/
def findTeams (q : BattlegroundQueue) (bracket : BracketId) (fits : ℕ → Bool) :
    Option ((ℕ × ℕ) × (ℕ × ℕ)) :=
  let queue := fun team => (q.queuedGroups (bracket, .premade team)).zipIdx
  let first := fun team => (queue team).find? fun itr => fits itr.1
  let second := fun team (itr : ℕ × ℕ) => ((queue team).drop itr.2).find? fun itr3 =>
    fits itr3.1 && decide ((q.info itr.1).arenaTeamId ≠ (q.info itr3.1).arenaTeamId)
  match first .alliance, first .horde with
  | some ali, some horde => some (ali, horde)
  | some ali, none => (second .alliance ali).map fun itr3 => (ali, itr3)
  | none, some horde => (second .horde horde).map fun itr3 => (horde, itr3)
  | none, none => none

/-- The opponents of a team are noted. -/
def setOpponents (q : BattlegroundQueue) (g : ℕ) (opponents : GroupQueueInfo) :
    BattlegroundQueue :=
  q.modify g fun ginfo => { ginfo with
    opponentsTeamRating := opponents.arenaTeamRating
    opponentsMatchmakerRating := opponents.arenaMatchmakerRating }

/-- A team that is not of the faction is moved to its queue. -/
def moveTeam (q : BattlegroundQueue) (bracket : BracketId) (itr : ℕ × ℕ) (team : Team) :
    BattlegroundQueue :=
  if (q.info itr.1).team ≠ team then
    let q := q.setQueue (bracket, .premade team) (itr.1 :: q.queuedGroups (bracket, .premade team))
    q.setQueue (bracket, .premade team.other)
      ((q.queuedGroups (bracket, .premade team.other)).eraseIdx itr.2)
  else q

/-- Two teams are to fight in an arena. -/
def startArena (q : BattlegroundQueue) (bracket : BracketId) (aTeam hTeam : ℕ × ℕ)
    (arena now : ℕ) : BattlegroundQueue :=
  let q := (q.setOpponents aTeam.1 (q.info hTeam.1)).setOpponents hTeam.1 (q.info aTeam.1)
  let q := (q.moveTeam bracket aTeam .alliance).moveTeam bracket hTeam .horde
  (q.inviteGroupToBG aTeam.1 arena .alliance now).inviteGroupToBG hTeam.1 arena .horde now

end BattlegroundQueue

/-! ## The update -/

/-- `STATUS_WAIT_QUEUE` -/
def statusWaitQueue : ℕ := 1

/-- `STATUS_WAIT_LEAVE` -/
def statusWaitLeave : ℕ := 4

/-- What the update looks at of a battleground in `m_BGFreeSlotQueue`. -/
structure Battleground where
  isRated : Bool
  typeID : ℕ
  bracketId : BracketId
  status : ℕ
  instanceID : ℕ
  freeSlots : Team → ℕ

/-- What the update looks at of a battleground template. -/
structure BattlegroundTemplate where
  isArena : Bool
  minPlayersPerTeam : ℕ
  maxPlayersPerTeam : ℕ

/-- The arguments of `BattlegroundQueueUpdate`, what it reads of the world and of the battleground
manager, and the battlegrounds that are created, if they are. -/
structure QueueUpdate where
  bgTypeId : ℕ
  bracketId : BracketId
  arenaType : ℕ
  isRated : Bool
  arenaRating : ℕ
  now : ℕ
  freeSlotQueue : List Battleground
  bgTemplate : Option BattlegroundTemplate
  bracketEntry : Bool
  invitationType : ℕ
  premadeGroupWait : ℕ
  isTesting : Bool
  isArenaTesting : Bool
  maxRatingDifference : ℕ
  ratingDiscardTimer : ℕ
  premadeBattleground : Option ℕ
  newBattleground : Option ℕ
  beyond : List ℕ
  back : ℕ

namespace BattlegroundQueue

/-- A battleground with free slots is filled. -/
def fillBattleground (req : QueueUpdate) (q : BattlegroundQueue) (bg : Battleground) :
    BattlegroundQueue :=
  if !bg.isRated && bg.typeID = req.bgTypeId && bg.bracketId = req.bracketId &&
      statusWaitQueue < bg.status && bg.status < statusWaitLeave then
    q.inviteSelected (q.fillPlayersToBG req.bracketId bg.freeSlots req.invitationType)
      bg.instanceID req.now
  else q

/-- A premade match is looked for. No battleground for it ends the update. -/
def premadeMatch (q : BattlegroundQueue) (req : QueueUpdate)
    (minPlayersPerTeam maxPlayersPerTeam : ℕ) : BattlegroundQueue × Bool :=
  let timeBefore := toU32 (req.now - req.premadeGroupWait)
  match q.checkPremadeMatch req.bracketId timeBefore minPlayersPerTeam maxPlayersPerTeam
    fun _ => {} with
  | (q, none) => (q, true)
  | (q, some pools) =>
    match req.premadeBattleground with
    | none => (q, false)
    | some bg2 => (q.inviteSelected pools bg2 req.now, true)

/-- The pools of a normal match, or else of a skirmish. -/
def selectPools (q : BattlegroundQueue) (req : QueueUpdate) (isArena : Bool)
    (minPlayersPerTeam maxPlayersPerTeam : ℕ) : BattlegroundQueue × Option SelectionPools :=
  let normal := q.checkNormalMatch req.bracketId minPlayersPerTeam maxPlayersPerTeam
    req.invitationType req.isTesting req.beyond fun _ => {}
  if normal.2 then (q, some normal.1)
  else if isArena then
    q.checkSkirmishForSameFaction req.bracketId minPlayersPerTeam req.back normal.1
  else (q, none)

/-- A normal match or a skirmish is looked for. -/
def normalMatch (q : BattlegroundQueue) (req : QueueUpdate) (isArena : Bool)
    (minPlayersPerTeam maxPlayersPerTeam : ℕ) : BattlegroundQueue :=
  match q.selectPools req isArena minPlayersPerTeam maxPlayersPerTeam, req.newBattleground with
  | (q, some pools), some bg2 => q.inviteSelected pools bg2 req.now
  | (q, _), _ => q

/-- A rated match is looked for. -/
def ratedMatch (q : BattlegroundQueue) (req : QueueUpdate) : BattlegroundQueue :=
  match q.frontRating req.bracketId req.arenaRating with
  | none => q
  | some arenaRating =>
    let fits := q.fitsRating (arenaRating - req.maxRatingDifference)
      (toU32 (arenaRating + req.maxRatingDifference)) (toU32 (req.now - req.ratingDiscardTimer))
    match q.findTeams req.bracketId fits, req.newBattleground with
    | some (aTeam, hTeam), some arena => q.startArena req.bracketId aTeam hTeam arena req.now
    | _, _ => q

/-- `BattlegroundQueueUpdate` -/
def update (q : BattlegroundQueue) (req : QueueUpdate) : BattlegroundQueue :=
  if (q.queuedGroups (req.bracketId, .premade .alliance)).isEmpty &&
      (q.queuedGroups (req.bracketId, .premade .horde)).isEmpty &&
      (q.queuedGroups (req.bracketId, .normal .alliance)).isEmpty &&
      (q.queuedGroups (req.bracketId, .normal .horde)).isEmpty then q
  else
    let q := req.freeSlotQueue.foldl (fillBattleground req) q
    match req.bgTemplate with
    | none => q
    | some bgTemplate =>
      if !req.bracketEntry then q
      else
        let maxPlayersPerTeam :=
          if bgTemplate.isArena then req.arenaType else bgTemplate.maxPlayersPerTeam
        let minPlayersPerTeam :=
          if bgTemplate.isArena then if req.isArenaTesting then 1 else req.arenaType
          else if req.isTesting then 1
          else bgTemplate.minPlayersPerTeam
        let premade :=
          if bgTemplate.isArena then (q, true)
          else q.premadeMatch req minPlayersPerTeam maxPlayersPerTeam
        let q := premade.1
        if !premade.2 then q
        else if !req.isRated then
          q.normalMatch req bgTemplate.isArena minPlayersPerTeam maxPlayersPerTeam
        else if bgTemplate.isArena then q.ratedMatch req
        else q

end BattlegroundQueue

/-- A call of the queue. -/
inductive QueueCall
  | addGroup (join : QueueJoin)
  | removePlayer (guid : ℕ)
  | update (req : QueueUpdate)

namespace BattlegroundQueue

/-- A call is served. -/
def serve (q : BattlegroundQueue) : QueueCall → BattlegroundQueue
  | .addGroup join => q.addGroup join
  | .removePlayer guid => q.removePlayer guid
  | .update req => q.update req

/-- Those who join are not yet queued. -/
def Joins (q : BattlegroundQueue) : QueueCall → Prop
  | .addGroup join => ∀ guid ∈ join.members, q.queuedPlayers guid = none
  | _ => True

end BattlegroundQueue

/-- The queue after calls. -/
def queueAfter (calls : List QueueCall) : BattlegroundQueue :=
  run BattlegroundQueue.serve {} calls

end MistyWorld
