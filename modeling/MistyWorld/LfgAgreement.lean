import Mathlib.Data.List.Flatten
import MistyWorld.LfgKeys

/-!
# When the guids of a list agree

The guids of a list `Agree` when they are few, at most one is an LFG group, their players are
distinct, do not ignore each other and can choose roles, and they have a dungeon in common. So do
then the guids of any part of the list (`Agree.sublist`). `CheckCompatibility` counts the players
in 8 bits and stops early, and it checks the ends of a list before the list. It finds out whether a
list agrees, and stores the answers under the keys of the list and of its ends
(`checked_checkCompatibility`).
-/

open List

namespace MistyWorld

/-! ## Choices for some of the players -/

variable {groles : LfgRolesMap}

theorem Choice.perm {groles' : LfgRolesMap} (hperm : groles.Perm groles')
    (h : ∃ roles, Choice groles roles) : ∃ roles, Choice groles' roles := by
  obtain ⟨roles, hforall, hcount⟩ := h
  obtain ⟨roles', hforall', hroles⟩ := perm_comp_forall₂ hperm.symm hforall
  exact ⟨roles', hforall', fun role => by rw [hroles.count_eq]; exact hcount role⟩

theorem Choice.sublist {groles' : LfgRolesMap} (hsublist : groles'.Sublist groles)
    (h : ∃ roles, Choice groles roles) : ∃ roles, Choice groles' roles := by
  obtain ⟨roles, hforall, hcount⟩ := h
  have hpart : ∃ roles' : List LfgRole, roles'.Sublist roles ∧
      List.Forall₂ (fun p role => p.2 &&& role.flag ≠ 0) groles' roles' := by
    clear hcount
    induction hsublist generalizing roles with
    | slnil => exact ⟨[], nil_sublist _, .nil⟩
    | cons p _ ih =>
      obtain ⟨role, roles, -, hrest, rfl⟩ := List.forall₂_cons_left_iff.1 hforall
      obtain ⟨roles', hroles, hforall'⟩ := ih roles hrest
      exact ⟨roles', hroles.cons role, hforall'⟩
    | cons_cons p _ ih =>
      obtain ⟨role, roles, hrole, hrest, rfl⟩ := List.forall₂_cons_left_iff.1 hforall
      obtain ⟨roles', hroles, hforall'⟩ := ih roles hrest
      exact ⟨role :: roles', hroles.cons_cons role, .cons hrole hforall'⟩
  obtain ⟨roles', hroles, hforall'⟩ := hpart
  exact ⟨roles', hforall', fun role => (hroles.count_le role).trans (hcount role)⟩

theorem length_roles (roles : List LfgRole) :
    roles.length = roles.count .tank + roles.count .healer + roles.count .damage := by
  induction roles with
  | nil => rfl
  | cons role roles ih => cases role <;> simp [ih] <;> omega

theorem Choice.length_le {roles : List LfgRole} (h : Choice groles roles) :
    groles.length ≤ maxGroupSize := by
  have hlength := length_roles roles
  have htank := h.2 .tank
  have hhealer := h.2 .healer
  have hdamage := h.2 .damage
  rw [h.1.length_eq]
  simp only [LfgRole.needed, maxGroupSize] at *
  omega

/-- The answer of `CheckGroupRoles`. -/
theorem check_iff (hne : groles ≠ []) (hlen : groles.length < 256)
    (hmasks : ∀ p ∈ groles, p.2 &&& 0xF0#8 = 0) :
    groles.check.1 = true ↔ ∃ roles, Choice groles roles := by
  obtain ⟨⟨answer, left⟩, hsome, hdecides⟩ :=
    checkGroupRoles_removeLeader hne hlen hmasks (Nat.lt_succ_self _)
  rw [LfgRolesMap.check, hsome, Option.getD_some]
  cases answer with
  | true =>
    obtain ⟨roles, hchoice, -⟩ := hdecides
    exact ⟨fun _ => ⟨roles, choice_removeLeader.1 hchoice⟩, fun _ => rfl⟩
  | false =>
    obtain ⟨-, hnone⟩ := hdecides
    exact ⟨nofun, fun ⟨roles, hroles⟩ => (hnone roles (choice_removeLeader.2 hroles)).elim⟩

namespace LfgQueue

/-! ## Agreement -/

/-- The players of a list. -/
def players (s : LfgQueue) (check : List ℕ) : LfgRolesMap :=
  check.flatMap s.rolesOf

/-- The guids of a list can go into a dungeon together, as far as they are there. -/
structure Agree (env : LfgView) (s : LfgQueue) (check : List ℕ) : Prop where
  size : check.length ≤ maxGroupSize
  lfgGroups : check.countP env.isLfgGroup ≤ 1
  distinct : ((s.players check).map Prod.fst).Nodup
  ignores : (s.players check).Pairwise fun p p' => env.hasIgnore p.1 p'.1 = false
  roles : ∃ roles, Choice (s.players check) roles
  dungeons : ∃ dungeon, ∀ guid ∈ check, dungeon ∈ s.dungeonsOf guid

/-- Queue data as it is added : at least one player, no more than can be counted, and masks of
roles. -/
def Valid (roles : LfgRolesMap) : Prop :=
  roles ≠ [] ∧ roles.length + maxGroupSize < 256 ∧ ∀ p ∈ roles, p.2 &&& 0xF0#8 = 0

/-- A guid has queue data. -/
def Stored (s : LfgQueue) (guid : ℕ) : Prop :=
  ∃ data, s.queueData guid = some data ∧ Valid data.roles

variable {env : LfgView} {s s' : LfgQueue} {check check' : List ℕ} {guid : ℕ} {roles : LfgRolesMap}
  {p : ℕ × BitVec 8}

theorem Stored.rolesOf (h : s.Stored guid) : Valid (s.rolesOf guid) := by
  obtain ⟨data, hdata, hvalid⟩ := h
  rwa [LfgQueue.rolesOf, hdata]

/-- A part of a list that agrees does so too. -/
theorem Agree.sublist (h : Agree env s check) (hsublist : check'.Sublist check) :
    Agree env s check' := by
  have hplayers : (s.players check').Sublist (s.players check) := hsublist.flatMap s.rolesOf
  obtain ⟨dungeon, hdungeon⟩ := h.dungeons
  exact ⟨hsublist.length_le.trans h.size, (hsublist.countP_le).trans h.lfgGroups,
    h.distinct.sublist (hplayers.map Prod.fst), h.ignores.sublist hplayers,
    Choice.sublist hplayers h.roles, dungeon,
    fun guid hguid => hdungeon guid (hsublist.subset hguid)⟩

theorem Agree.players_le (h : Agree env s check) : (s.players check).length ≤ maxGroupSize := by
  obtain ⟨roles, hroles⟩ := h.roles
  exact hroles.length_le

theorem players_ne_nil (hstored : ∀ guid ∈ check, s.Stored guid) (hne : check ≠ []) :
    s.players check ≠ [] := by
  obtain ⟨guid, hguid⟩ := exists_mem_of_ne_nil check hne
  obtain ⟨p, hp⟩ := exists_mem_of_ne_nil _ (hstored guid hguid).rolesOf.1
  exact ne_nil_of_mem (mem_flatMap.2 ⟨guid, hguid, hp⟩)

theorem players_masks (hstored : ∀ guid ∈ check, s.Stored guid) :
    ∀ p ∈ s.players check, p.2 &&& 0xF0#8 = 0 := by
  intro p hp
  obtain ⟨guid, hguid, hp⟩ := mem_flatMap.1 hp
  exact (hstored guid hguid).rolesOf.2.2 p hp

/-! ## Counting -/

/-- The count is right, or one of the numbers is too large. -/
theorem count_spec (env : LfgView) (hstored : ∀ guid ∈ check, s.Stored guid) (c : Count) :
    ∃ c', count env s check c = .ok c' ∧
      (c.numLfgGroups + check.countP env.isLfgGroup ≤ 1 →
        c.numPlayers + (s.players check).length ≤ maxGroupSize →
          c'.numLfgGroups = c.numLfgGroups + check.countP env.isLfgGroup ∧
            c'.numPlayers = c.numPlayers + (s.players check).length) ∧
      (1 < c.numLfgGroups + check.countP env.isLfgGroup ∨
          maxGroupSize < c.numPlayers + (s.players check).length →
        1 < c'.numLfgGroups ∨ maxGroupSize < c'.numPlayers) := by
  induction check generalizing c with
  | nil => exact ⟨c, rfl, fun _ _ => ⟨rfl, rfl⟩, id⟩
  | cons guid check ih =>
    obtain ⟨data, hdata, hvalid⟩ := hstored guid mem_cons_self
    have hplayers : (s.players (guid :: check)).length =
        data.roles.length + (s.players check).length := by
      rw [players, flatMap_cons, length_append, LfgQueue.rolesOf, hdata]
      rfl
    have hgroups : (guid :: check).countP env.isLfgGroup =
        check.countP env.isLfgGroup + if env.isLfgGroup guid then 1 else 0 := countP_cons
    rw [count, hplayers, hgroups]
    by_cases hgo : c.numLfgGroups < 2 ∧ c.numPlayers ≤ maxGroupSize
    · obtain ⟨c', hc', hright, hlarge⟩ :=
        ih (fun g hg => hstored g (mem_cons_of_mem guid hg)) (c.add env guid data)
      have hadd : (c.add env guid data).numPlayers = c.numPlayers + data.roles.length :=
        Nat.mod_eq_of_lt (by have hfew := hvalid.2.1; omega)
      have haddGroups : (c.add env guid data).numLfgGroups =
          c.numLfgGroups + if env.isLfgGroup guid then 1 else 0 := rfl
      rw [if_pos hgo, hdata]
      refine ⟨c', hc', fun hg hp => ?_, fun h => hlarge (by omega)⟩
      obtain ⟨hg', hp'⟩ := hright (by omega) (by omega)
      omega
    · rw [if_neg hgo]
      exact ⟨c, rfl, fun hg hp => by omega, fun _ => by omega⟩

/-! ## The players of a proposal -/

/-- A player is new, and nobody ignores him. -/
def Joins (env : LfgView) (roles : LfgRolesMap) (p : ℕ × BitVec 8) : Prop :=
  ∀ p' ∈ roles, p.1 ≠ p'.1 ∧ env.hasIgnore p.1 p'.1 = false

theorem addRole_of_joins (h : Joins env roles p) :
    addRole env roles p = SortedMap.insert p.1 p.2 roles ∧
      (addRole env roles p).Perm (p :: roles) := by
  have hany : ¬ (roles.any fun p' => p.1 ≠ p'.1 && env.hasIgnore p.1 p'.1) = true := by
    rw [any_eq_true]
    rintro ⟨p', hp', hignore⟩
    simp [(h p' hp').2] at hignore
  rw [addRole, if_neg hany]
  refine ⟨rfl, SortedMap.insert_perm fun hmem => ?_⟩
  obtain ⟨p', hp', heq⟩ := mem_map.1 hmem
  exact (h p' hp').1 heq.symm

theorem sorted_addRole (hsorted : SortedMap.Sorted roles) (p : ℕ × BitVec 8) :
    SortedMap.Sorted (addRole env roles p) := by
  rw [addRole]
  split_ifs
  · exact hsorted
  · exact hsorted.insert

theorem length_addRole (hsorted : SortedMap.Sorted roles) (h : ¬ Joins env roles p) :
    (addRole env roles p).length = roles.length := by
  rw [addRole]
  split_ifs with hany
  · rfl
  · refine hsorted.length_insert ?_
    by_contra hmem
    refine h fun p' hp' => ?_
    have hne : p.1 ≠ p'.1 := fun heq => hmem (heq ▸ mem_map_of_mem hp')
    refine ⟨hne, Bool.eq_false_iff.2 fun hignore => hany ?_⟩
    exact any_eq_true.2 ⟨p', hp', by simp [hne, hignore]⟩

/-- All players can join, one after the other. -/
def AllJoin (env : LfgView) (roles l : LfgRolesMap) : Prop :=
  (l.map Prod.fst).Nodup ∧ (l.Pairwise fun p p' => env.hasIgnore p.1 p'.1 = false) ∧
    ∀ p ∈ l, Joins env roles p

theorem hasIgnore_comm (guid1 guid2 : ℕ) : env.hasIgnore guid1 guid2 = env.hasIgnore guid2 guid1 :=
  Bool.or_comm _ _

theorem allJoin_cons {l : LfgRolesMap} :
    AllJoin env roles (p :: l) ↔ Joins env roles p ∧ AllJoin env (p :: roles) l := by
  simp only [AllJoin, map_cons, nodup_cons, pairwise_cons, forall_mem_cons,
    Joins]
  constructor
  · rintro ⟨⟨hp, hnodup⟩, ⟨hignore, hpairwise⟩, hjoins, hall⟩
    refine ⟨hjoins, hnodup, hpairwise, fun q hq => ⟨⟨fun heq => hp ?_, ?_⟩, hall q hq⟩⟩
    · exact heq ▸ mem_map_of_mem hq
    · rw [hasIgnore_comm]
      exact hignore q hq
  · rintro ⟨hjoins, hnodup, hpairwise, hall⟩
    refine ⟨⟨fun hmem => ?_, hnodup⟩, ⟨fun q hq => ?_, hpairwise⟩, hjoins,
      fun q hq => (hall q hq).2⟩
    · obtain ⟨q, hq, heq⟩ := mem_map.1 hmem
      exact (hall q hq).1.1 heq
    · rw [hasIgnore_comm]
      exact (hall q hq).1.2

theorem allJoin_perm {roles' l : LfgRolesMap} (h : roles.Perm roles') :
    AllJoin env roles l ↔ AllJoin env roles' l := by
  simp only [AllJoin, Joins, h.mem_iff]

/-- Players are lost exactly when some of them cannot join. -/
theorem foldl_addRole (env : LfgView) (hsorted : SortedMap.Sorted roles) (l : LfgRolesMap) :
    (l.foldl (addRole env) roles).length ≤ roles.length + l.length ∧
      (AllJoin env roles l → (l.foldl (addRole env) roles).Perm (roles ++ l)) ∧
      (¬ AllJoin env roles l → (l.foldl (addRole env) roles).length < roles.length + l.length) := by
  induction l generalizing roles with
  | nil =>
    exact ⟨le_refl _, fun _ => by simp, fun h => (h ⟨nodup_nil, .nil, by simp⟩).elim⟩
  | cons p l ih =>
    have hsorted' : SortedMap.Sorted (addRole env roles p) := sorted_addRole hsorted p
    obtain ⟨hle, hperm, hlt⟩ := ih hsorted'
    rw [foldl_cons, length_cons, allJoin_cons]
    by_cases hp : Joins env roles p
    · have hadd := (addRole_of_joins hp).2
      rw [hadd.length_eq, length_cons] at hle hlt
      rw [allJoin_perm hadd] at hperm hlt
      refine ⟨by omega, fun h => (hperm h.2).trans ?_, fun h => ?_⟩
      · exact (hadd.append_right l).trans perm_middle.symm
      · have hless := hlt fun hall => h ⟨hp, hall⟩
        omega
    · rw [length_addRole hsorted hp] at hle
      exact ⟨by omega, fun h => (hp h.1).elim, fun _ => by omega⟩

theorem mem_proposalDungeons {dungeon : ℕ} (hne : check ≠ []) :
    dungeon ∈ s.proposalDungeons check ↔ ∀ guid ∈ check, dungeon ∈ s.dungeonsOf guid := by
  cases check with
  | nil => exact absurd rfl hne
  | cons guid check =>
    rw [proposalDungeons, forall_mem_cons]
    clear hne
    generalize s.dungeonsOf guid = dungeons
    induction check generalizing dungeons with
    | nil => simp
    | cons guid check ih =>
      rw [foldl_cons, ih, Finset.mem_inter, forall_mem_cons, and_assoc]

/-! ## What is written -/

/-- Each entry has the same roles and dungeons. -/
def SameData (s s' : LfgQueue) : Prop :=
  ∀ guid, (s'.queueData guid).map (fun data => (data.roles, data.dungeons)) =
    (s.queueData guid).map fun data => (data.roles, data.dungeons)

theorem SameData.refl (s : LfgQueue) : SameData s s :=
  fun _ => rfl

section

variable (h : SameData s s')
include h

theorem SameData.trans {s'' : LfgQueue} (h' : SameData s' s'') : SameData s s'' :=
  fun guid => (h' guid).trans (h guid)

theorem SameData.rolesOf (guid : ℕ) : s'.rolesOf guid = s.rolesOf guid := by
  have hguid := h guid
  unfold LfgQueue.rolesOf
  cases hs : s.queueData guid <;> cases hs' : s'.queueData guid <;> simp_all

theorem SameData.dungeonsOf (guid : ℕ) : s'.dungeonsOf guid = s.dungeonsOf guid := by
  have hguid := h guid
  unfold LfgQueue.dungeonsOf
  cases hs : s.queueData guid <;> cases hs' : s'.queueData guid <;> simp_all

theorem SameData.players (check : List ℕ) : s'.players check = s.players check := by
  rw [LfgQueue.players, LfgQueue.players, funext h.rolesOf]

theorem SameData.stored : s'.Stored guid ↔ s.Stored guid := by
  have hguid := h guid
  unfold Stored
  cases hs : s.queueData guid <;> cases hs' : s'.queueData guid <;> simp_all

theorem SameData.agree : Agree env s' check ↔ Agree env s check := by
  constructor
  · rintro ⟨h1, h2, h3, h4, h5, h6⟩
    rw [h.players] at h3 h4 h5
    simp only [h.dungeonsOf] at h6
    exact ⟨h1, h2, h3, h4, h5, h6⟩
  · rintro ⟨h1, h2, h3, h4, h5, h6⟩
    rw [← h.players] at h3 h4 h5
    simp only [← h.dungeonsOf] at h6
    exact ⟨h1, h2, h3, h4, h5, h6⟩

end

theorem updateBest_data (data : LfgQueueData) (key : LfgKey) (roles : LfgRolesMap) :
    (data.updateBest key roles).roles = data.roles ∧
      (data.updateBest key roles).dungeons = data.dungeons := by
  have htake : ∀ (roles : LfgRolesMap) (data : LfgQueueData),
      (roles.foldl (fun data p => data.takeRole p.2) data).roles = data.roles ∧
        (roles.foldl (fun data p => data.takeRole p.2) data).dungeons = data.dungeons := by
    intro roles
    induction roles with
    | nil => exact fun _ => ⟨rfl, rfl⟩
    | cons p roles ih =>
      intro data
      have hone : (data.takeRole p.2).roles = data.roles ∧
          (data.takeRole p.2).dungeons = data.dungeons := by
        unfold LfgQueueData.takeRole
        split_ifs <;> exact ⟨rfl, rfl⟩
      rw [foldl_cons, (ih _).1, (ih _).2]
      exact hone
  unfold LfgQueueData.updateBest
  dsimp only
  generalize (if data.bestCompatible = [] then 0 else data.bestCompatible.groups) = storedSize
  split_ifs
  · exact ⟨rfl, rfl⟩
  · exact htake roles _

theorem sameData_updateBestOf (key : LfgKey) (roles : LfgRolesMap) :
    SameData s (updateBestOf key roles s guid) := by
  intro guid'
  rw [updateBestOf]
  by_cases hguid : guid' = guid
  · subst hguid
    simp only [Function.update_self, Option.map_map]
    congr 1
    funext data
    simp [updateBest_data]
  · simp only [Function.update_of_ne hguid]

theorem sameData_foldl {step : LfgQueue → ℕ → LfgQueue}
    (hstep : ∀ s guid, SameData s (step s guid)) (check : List ℕ) :
    ∀ s, SameData s (check.foldl step s) := by
  induction check with
  | nil => exact SameData.refl
  | cons guid check ih => exact fun s => (hstep s guid).trans (ih _)

theorem compatibles_foldl (step : LfgQueue → ℕ → LfgQueue)
    (hstep : ∀ s guid, (step s guid).compatibles = s.compatibles) (check : List ℕ) :
    ∀ s : LfgQueue, (check.foldl step s).compatibles = s.compatibles := by
  induction check with
  | nil => exact fun _ => rfl
  | cons guid check ih => exact fun s => (ih _).trans (hstep s guid)

variable {key key' : LfgKey}

theorem getCompatibles_setCompatibilityData {data : LfgCompatibilityData} :
    (s.setCompatibilityData key data).getCompatibles key' =
      if key = key' then data.compatibility else s.getCompatibles key' := by
  rw [getCompatibles, setCompatibilityData, SortedMap.find_insert]
  split_ifs <;> rfl

theorem getCompatibles_setCompatibles {compatibles : LfgCompatibility} :
    (s.setCompatibles key compatibles).getCompatibles key' =
      if key = key' then compatibles else s.getCompatibles key' :=
  getCompatibles_setCompatibilityData

/-- A list is checked : the data stay, and what is found is stored under its key. -/
structure Stores (s : LfgQueue) (key : LfgKey) (r : LfgCompatibility × LfgQueue) : Prop where
  same : SameData s r.2
  stored : ∀ key', r.2.getCompatibles key' = if key = key' then r.1 else s.getCompatibles key'

theorem stores_setCompatibles (compatibles : LfgCompatibility) :
    Stores s key (compatibles, s.setCompatibles key compatibles) :=
  ⟨SameData.refl s, fun _ => getCompatibles_setCompatibles⟩

theorem stores_less (check : List ℕ) (roles : LfgRolesMap) :
    Stores s key (.withLessPlayers, (check.foldl (updateBestOf key roles) s).setCompatibilityData
      key ⟨.withLessPlayers, roles⟩) := by
  have hcompatibles : (check.foldl (updateBestOf key roles) s).compatibles = s.compatibles :=
    compatibles_foldl (updateBestOf key roles) (fun _ _ => rfl) check s
  refine ⟨sameData_foldl (fun _ _ => sameData_updateBestOf key roles) check s, fun key' => ?_⟩
  rw [getCompatibles_setCompatibilityData, getCompatibles, hcompatibles]
  rfl

theorem stores_checkAgreed (c : Count) (roles : LfgRolesMap) :
    Stores s (concatenateGuids check) (checkAgreed env check c roles s) := by
  unfold checkAgreed
  split_ifs
  · exact stores_less check roles
  · exact stores_setCompatibles _
  · have hleave : ∀ s guid, SameData s (leaveQueues s guid) := fun s _ => SameData.refl s
    have hsame : SameData s (check.foldl leaveQueues s) := sameData_foldl hleave check s
    have hcompatibles : (check.foldl leaveQueues s).compatibles = s.compatibles :=
      compatibles_foldl leaveQueues (fun _ _ => rfl) check s
    refine ⟨hsame, fun key' => ?_⟩
    rw [getCompatibles_setCompatibles, getCompatibles]
    rw [hcompatibles]
    rfl

theorem stores_checkGroups {c : Count} (hc : count env s check {} = .ok c) :
    Stores s (concatenateGuids check) (checkGroups env check s) := by
  unfold checkGroups
  rw [hc]
  dsimp only
  split_ifs
  · exact stores_less check _
  · exact stores_setCompatibles _
  · exact stores_setCompatibles _
  · cases agreedRoles env s check c.numPlayers with
    | error compatibility => exact stores_setCompatibles _
    | ok roles => exact stores_checkAgreed c roles

/-! ## What is found -/

/-- The answers that a list does not agree. -/
def Incompatible (c : LfgCompatibility) : Prop :=
  c.toNat < LfgCompatibility.withLessPlayers.toNat ∧ c ≠ .pending

/-- The answer when a list agrees. -/
def agreed (s : LfgQueue) (check : List ℕ) : LfgCompatibility :=
  if (s.players check).length = maxGroupSize then .matched else .withLessPlayers

theorem allJoin_nil_iff : AllJoin env [] (s.players check) ↔
    ((s.players check).map Prod.fst).Nodup ∧
      (s.players check).Pairwise fun p p' => env.hasIgnore p.1 p'.1 = false := by
  simp [AllJoin, Joins]

/-- The players, ignore lists, roles and dungeons are checked. -/
theorem agreedRoles_spec (hstored : ∀ guid ∈ check, s.Stored guid) (hlen : 1 < check.length)
    (hsize : check.length ≤ maxGroupSize) (hgroups : check.countP env.isLfgGroup ≤ 1)
    (hplayers : (s.players check).length ≤ maxGroupSize) :
    (Agree env s check → ∃ roles, agreedRoles env s check (s.players check).length = .ok roles) ∧
      (¬ Agree env s check →
        ∃ c, agreedRoles env s check (s.players check).length = .error c ∧ Incompatible c) := by
  have hne : check ≠ [] := by
    rintro rfl
    simp at hlen
  obtain ⟨hle, hperm, hlt⟩ :=
    foldl_addRole env (List.Pairwise.nil : SortedMap.Sorted ([] : LfgRolesMap)) (s.players check)
  rw [length_nil, zero_add] at hle hlt
  rw [nil_append] at hperm
  rw [agreedRoles, if_pos hlen]
  rw [show proposalRoles env s check = (s.players check).foldl (addRole env) [] from rfl]
  generalize (s.players check).foldl (addRole env) [] = roles at hle hperm hlt
  unfold maxGroupSize at hplayers
  by_cases hjoin : AllJoin env [] (s.players check)
  · have hroles := hperm hjoin
    obtain ⟨hdistinct, hignores⟩ := allJoin_nil_iff.1 hjoin
    have hcheck : roles.check.1 = true ↔ ∃ choice, Choice (s.players check) choice := by
      rw [check_iff (fun h => players_ne_nil hstored hne (nil_perm.1 (h ▸ hroles)))
        (by omega) fun p hp => players_masks hstored p (hroles.subset hp)]
      exact ⟨Choice.perm hroles, Choice.perm hroles.symm⟩
    rw [if_neg (by rw [hroles.length_eq]; omega)]
    by_cases hchoice : ∃ choice, Choice (s.players check) choice
    · rw [if_neg (by rw [hcheck.2 hchoice]; decide)]
      by_cases hdungeons : s.proposalDungeons check = ∅
      · rw [if_pos hdungeons]
        refine ⟨fun h => ?_, fun _ => ⟨_, rfl, by decide, by decide⟩⟩
        obtain ⟨dungeon, hdungeon⟩ := h.dungeons
        have hmem := (mem_proposalDungeons hne).2 hdungeon
        rw [hdungeons] at hmem
        exact absurd hmem (Finset.notMem_empty dungeon)
      · rw [if_neg hdungeons]
        refine ⟨fun _ => ⟨_, rfl⟩, fun h => (h ?_).elim⟩
        obtain ⟨dungeon, hdungeon⟩ := Finset.nonempty_iff_ne_empty.2 hdungeons
        exact ⟨hsize, hgroups, hdistinct, hignores, hchoice, dungeon,
          (mem_proposalDungeons hne).1 hdungeon⟩
    · rw [if_pos (by rw [Bool.eq_false_iff.2 fun h => hchoice (hcheck.1 h)]; rfl)]
      exact ⟨fun h => (hchoice h.roles).elim, fun _ => ⟨_, rfl, by decide, by decide⟩⟩
  · have hless := hlt hjoin
    rw [if_pos (by omega)]
    exact ⟨fun h => (hjoin (allJoin_nil_iff.2 ⟨h.distinct, h.ignores⟩)).elim,
      fun _ => ⟨_, rfl, by decide, by decide⟩⟩

theorem checkGroups_spec (hstored : ∀ guid ∈ check, s.Stored guid)
    (hqueued : env.allQueued check) (hlen : 1 < check.length)
    (hsize : check.length ≤ maxGroupSize) :
    (Agree env s check → (checkGroups env check s).1 = s.agreed check) ∧
      (¬ Agree env s check → Incompatible (checkGroups env check s).1) := by
  obtain ⟨c, hc, hright, hlarge⟩ := count_spec env hstored {}
  simp only [zero_add] at hright hlarge
  unfold checkGroups
  rw [hc]
  dsimp only
  rw [if_neg fun h => by omega]
  by_cases hfit : check.countP env.isLfgGroup ≤ 1 ∧ (s.players check).length ≤ maxGroupSize
  · obtain ⟨hgroups, hplayers⟩ := hright hfit.1 hfit.2
    rw [if_neg (by omega), if_neg (by omega), hplayers]
    obtain ⟨hok, herror⟩ := agreedRoles_spec hstored hlen hsize hfit.1 hfit.2
    constructor
    · intro h
      obtain ⟨roles, hroles⟩ := hok h
      rw [hroles]
      dsimp only
      rw [checkAgreed, agreed, hplayers]
      by_cases hfull : (s.players check).length = maxGroupSize
      · rw [if_neg (not_not.2 hfull), if_neg (by simp [hqueued]), if_pos hfull]
      · rw [if_pos hfull, if_neg hfull]
    · intro h
      obtain ⟨e, he, hincompatible⟩ := herror h
      rw [he]
      exact hincompatible
  · have hover := hlarge (by omega)
    refine ⟨fun h => (hfit ⟨h.lfgGroups, h.players_le⟩).elim, fun _ => ?_⟩
    split_ifs with hgroups hplayers
    · show Incompatible .multipleLfgGroups
      exact ⟨by decide, by decide⟩
    · show Incompatible .tooMuchPlayers
      exact ⟨by decide, by decide⟩
    · omega

/-- A list of several guids is checked : whether it agrees is found and stored under its key. The
other keys that are written are those of its ends. -/
structure Checked (env : LfgView) (s : LfgQueue) (check : List ℕ)
    (r : LfgCompatibility × LfgQueue) : Prop where
  same : SameData s r.2
  agree : Agree env s check → r.1 = s.agreed check
  notAgree : ¬ Agree env s check → Incompatible r.1
  stored : r.2.getCompatibles (concatenateGuids check) = r.1
  others : ∀ key, key ≠ concatenateGuids check →
    r.2.getCompatibles key = s.getCompatibles key ∨
      ∃ rest, rest <:+ check ∧ rest ≠ [] ∧ key = concatenateGuids rest

theorem SameData.agreed (h : SameData s s') : s'.agreed check = s.agreed check := by
  rw [LfgQueue.agreed, LfgQueue.agreed, h.players]

/-- The groups of a list are checked after its rest. -/
theorem checked_checkGroups {child : LfgQueue} (hsame : SameData s child)
    (hothers : ∀ key, child.getCompatibles key = s.getCompatibles key ∨
      ∃ rest, rest <:+ check ∧ rest ≠ [] ∧ key = concatenateGuids rest)
    (hstored : ∀ guid ∈ check, s.Stored guid) (hqueued : env.allQueued check)
    (hlen : 1 < check.length) (hsize : check.length ≤ maxGroupSize) :
    Checked env s check (checkGroups env check child) := by
  have hstored' : ∀ guid ∈ check, child.Stored guid :=
    fun guid hguid => hsame.stored.2 (hstored guid hguid)
  obtain ⟨hagree, hnot⟩ := checkGroups_spec hstored' hqueued hlen hsize
  rw [hsame.agree] at hagree hnot
  rw [hsame.agreed] at hagree
  obtain ⟨c, hc, -⟩ := count_spec env hstored' {}
  have hstores := stores_checkGroups hc
  refine ⟨hsame.trans hstores.same, hagree, hnot, ?_, fun key hkey => ?_⟩
  · rw [hstores.stored, if_pos rfl]
  · rw [hstores.stored, if_neg (Ne.symm hkey)]
    exact hothers key

theorem checked_checkCompatibility : ∀ {check : List ℕ} (s : LfgQueue),
    (∀ guid ∈ check, s.Stored guid) → (∀ guid ∈ check, env.isQueued guid) → 1 < check.length →
      check.length ≤ maxGroupSize → Checked env s check (checkCompatibility env check s)
  | [], _, _, _, hlen, _ => absurd hlen (by simp)
  | guid :: check, s, hstored, hqueued, hlen, hsize => by
    have hall : env.allQueued (guid :: check) := by
      simpa [LfgView.allQueued] using hqueued
    rw [checkCompatibility, if_neg (not_lt.2 hsize)]
    by_cases hmore : 2 < (guid :: check).length
    · have hchild := checked_checkCompatibility s
        (fun g hg => hstored g (mem_cons_of_mem guid hg))
        (fun g hg => hqueued g (mem_cons_of_mem guid hg))
        (by rw [length_cons] at hmore; omega) (by rw [length_cons] at hsize; omega)
      have hrest : check ≠ [] := by
        rintro rfl
        simp at hmore
      rw [if_pos hmore]
      generalize checkCompatibility env check s = child at hchild
      have hothers : ∀ key, child.2.getCompatibles key = s.getCompatibles key ∨
          ∃ rest, rest <:+ guid :: check ∧ rest ≠ [] ∧ key = concatenateGuids rest := by
        intro key
        by_cases hkey : key = concatenateGuids check
        · exact .inr ⟨check, suffix_cons guid check, hrest, hkey⟩
        · rcases hchild.others key hkey with heq | ⟨rest, hsuffix, hne, heq⟩
          · exact .inl heq
          · exact .inr ⟨rest, hsuffix.trans (suffix_cons guid check), hne, heq⟩
      by_cases hless : child.1.toNat < LfgCompatibility.withLessPlayers.toNat
      · -- the rest does not agree
        have hnot : ¬ Agree env s check := fun h => by
          rw [hchild.agree h, agreed] at hless
          split_ifs at hless <;> exact absurd hless (by decide)
        rw [if_pos hless]
        refine ⟨hchild.same, fun h => (hnot (h.sublist (sublist_cons_self guid check))).elim,
          fun _ => hchild.notAgree hnot, ?_, fun key hkey => ?_⟩
        · rw [getCompatibles_setCompatibles, if_pos rfl]
        · rw [getCompatibles_setCompatibles, if_neg (Ne.symm hkey)]
          exact hothers key
      · rw [if_neg hless]
        exact checked_checkGroups hchild.same hothers hstored hall hlen hsize
    · rw [if_neg hmore]
      exact checked_checkGroups (SameData.refl s) (fun _ => .inl rfl) hstored hall hlen hsize

end LfgQueue

end MistyWorld
