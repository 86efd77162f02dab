import Mathlib.Algebra.Ring.Nat
import Mathlib.Data.Fintype.Basic
import Mathlib.Data.List.Forall2
import Mathlib.Logic.Function.Basic

/-!
# The roles of a group

Each player of the dungeon finder asks for a mask of roles. `CheckGroupRoles` looks for a role of
each, with no more than one tank, one healer and three damage dealers. It takes a role from the
first mask that has several, calls itself, and gives the role back when there is no choice without
it. So the map is its own stack : it holds the choice at the end, or what it held at the start.

A choice is a list of roles, one for each player (`Choice`). The search always ends, says whether
there is one, and leaves it in the map (`checkGroupRoles_decides`).
-/

open Function List

namespace MistyWorld

/-- The roles to play, of `LfgRoles`. -/
inductive LfgRole
  | tank
  | healer
  | damage
deriving DecidableEq

namespace LfgRole

instance : Fintype LfgRole :=
  ⟨⟨[tank, healer, damage], by decide⟩, fun role => by cases role <;> decide⟩

/-- `PLAYER_ROLE_TANK`, `PLAYER_ROLE_HEALER` and `PLAYER_ROLE_DAMAGE` -/
def flag : LfgRole → BitVec 8
  | tank => 0x02#8
  | healer => 0x04#8
  | damage => 0x08#8

/-- `LFG_TANKS_NEEDED`, `LFG_HEALERS_NEEDED` and `LFG_DPS_NEEDED` -/
def needed : LfgRole → ℕ
  | tank => 1
  | healer => 1
  | damage => 3

end LfgRole

/-- `PLAYER_ROLE_NONE` -/
def playerRoleNone : BitVec 8 := 0x00#8

/-- `PLAYER_ROLE_LEADER` -/
def playerRoleLeader : BitVec 8 := 0x01#8

/-- `LfgRolesMap`, in the order of the guids. -/
abbrev LfgRolesMap := List (ℕ × BitVec 8)

namespace LfgRolesMap

/-- The mask of a player of the map. -/
def mask (groles : LfgRolesMap) (i : ℕ) : BitVec 8 :=
  (groles[i]?.map Prod.snd).getD playerRoleNone

/-- A write to the mask of a player. -/
def setMask (groles : LfgRolesMap) (i : ℕ) (f : BitVec 8 → BitVec 8) : LfgRolesMap :=
  groles.modify i fun p => (p.1, f p.2)

/-- All players lose the leader flag. -/
def removeLeader (groles : LfgRolesMap) : LfgRolesMap :=
  groles.map fun p => (p.1, p.2 &&& ~~~playerRoleLeader)

end LfgRolesMap

/-- The loop of `CheckGroupRoles` goes on, with a map and the numbers of roles taken, or it
returns. -/
inductive RoleCheck
  | next (groles : LfgRolesMap) (taken : LfgRole → ℕ)
  | ret (answer : Bool) (groles : LfgRolesMap)

/-- What follows in the loop, unless it returned. -/
def RoleCheck.andThen (check : Option RoleCheck)
    (f : LfgRolesMap → (LfgRole → ℕ) → Option RoleCheck) : Option RoleCheck :=
  match check with
  | none => none
  | some (.ret answer groles) => some (.ret answer groles)
  | some (.next groles taken) => f groles taken

section Loop

variable (again : LfgRolesMap → Option (Bool × LfgRolesMap))

/-- One of the three conditions of the loop. `again` is the call in the middle of it. -/
def checkRole (i : ℕ) (role : LfgRole) (groles : LfgRolesMap) (taken : LfgRole → ℕ) :
    Option RoleCheck :=
  if groles.mask i &&& role.flag = 0 then some (.next groles taken)
  else if groles.mask i ≠ role.flag then
    match again (groles.setMask i (· - role.flag)) with
    | none => none
    | some (true, groles) => some (.ret true groles)
    | some (false, groles) => some (.next (groles.setMask i (· + role.flag)) taken)
  else if taken role = role.needed then some (.ret false groles)
  else some (.next groles (update taken role (taken role + 1)))

/-- The body of the loop. -/
def checkPlayer (i : ℕ) (groles : LfgRolesMap) (taken : LfgRole → ℕ) : Option RoleCheck :=
  if groles.mask i = playerRoleNone then some (.ret false groles)
  else
    RoleCheck.andThen (checkRole again i .damage groles taken) fun groles taken =>
      RoleCheck.andThen (checkRole again i .healer groles taken) (checkRole again i .tank)

/-- The loop over the players from `i` on, of whom there are `n`. -/
def checkPlayers : ℕ → ℕ → LfgRolesMap → (LfgRole → ℕ) → Option (Bool × LfgRolesMap)
  | 0, _, groles, taken =>
    some (taken .tank + taken .healer + taken .damage = groles.length % 256, groles)
  | n + 1, i, groles, taken =>
    match checkPlayer again i groles taken with
    | none => none
    | some (.ret answer groles) => some (answer, groles)
    | some (.next groles taken) => checkPlayers n (i + 1) groles taken

end Loop

/-- `CheckGroupRoles`, with the map it leaves. Calls are nested no deeper than `fuel`. -/
def checkGroupRoles : ℕ → LfgRolesMap → Bool → Option (Bool × LfgRolesMap)
  | 0, _, _ => none
  | fuel + 1, groles, removeLeaderFlag =>
    if groles = [] then some (false, groles)
    else
      let groles := if removeLeaderFlag then groles.removeLeader else groles
      checkPlayers (checkGroupRoles fuel · false) groles.length 0 groles fun _ => 0

/-! ## Choices -/

/-- A role for each player, out of the mask, and none too often. -/
def Choice (groles : LfgRolesMap) (roles : List LfgRole) : Prop :=
  List.Forall₂ (fun p role => p.2 &&& role.flag ≠ 0) groles roles ∧
    ∀ role, roles.count role ≤ role.needed

/-- The map in which each player has the flag of the given role only. -/
def LfgRolesMap.assigned (groles : LfgRolesMap) (roles : List LfgRole) : LfgRolesMap :=
  List.zipWith (fun p role => (p.1, role.flag)) groles roles

/-- What an answer says about a map, and which map it leaves. -/
def Decides (groles : LfgRolesMap) : Bool × LfgRolesMap → Prop
  | (true, left) => ∃ roles, Choice groles roles ∧ left = groles.assigned roles
  | (false, left) => left = groles ∧ ∀ roles, ¬ Choice groles roles

/-- The masks of the roles to play. -/
def Clean (mask : BitVec 8) : Prop :=
  mask &&& 0xF1#8 = 0

instance (mask : BitVec 8) : Decidable (Clean mask) :=
  inferInstanceAs (Decidable (_ = _))

/-- The number of roles in a mask. -/
def width (mask : BitVec 8) : ℕ :=
  [LfgRole.tank, .healer, .damage].countP fun role => mask &&& role.flag ≠ 0

/-- The number of roles in all masks. -/
def LfgRolesMap.width (groles : LfgRolesMap) : ℕ :=
  (groles.map fun p => MistyWorld.width p.2).sum

theorem flag_and_flag_iff (role q : LfgRole) : role.flag &&& q.flag ≠ 0 ↔ q = role := by
  revert role q
  decide

@[simp] theorem flag_inj {role q : LfgRole} : role.flag = q.flag ↔ role = q := by
  revert role q
  decide

theorem flag_ne_none (role : LfgRole) : role.flag ≠ playerRoleNone := by
  revert role
  decide

variable {mask : BitVec 8}

theorem Clean.sub (h : Clean mask) {role : LfgRole} (hrole : mask &&& role.flag ≠ 0) :
    Clean (mask - role.flag) := by
  revert mask role
  decide +kernel

theorem sub_and_iff (h : Clean mask) {role : LfgRole} (hrole : mask &&& role.flag ≠ 0) (q : LfgRole) :
    (mask - role.flag) &&& q.flag ≠ 0 ↔ q ≠ role ∧ mask &&& q.flag ≠ 0 := by
  revert mask role q
  decide +kernel

theorem width_sub_lt (h : Clean mask) {role : LfgRole} (hrole : mask &&& role.flag ≠ 0) :
    width (mask - role.flag) < width mask := by
  revert mask role
  decide +kernel

/-- A mask with several roles has another one. -/
theorem exists_other (h : Clean mask) (hseveral : ∀ role : LfgRole, mask ≠ role.flag) {q : LfgRole}
    (hq : mask &&& q.flag ≠ 0) : ∃ role : LfgRole, role ≠ q ∧ mask &&& role.flag ≠ 0 := by
  revert mask q
  decide +kernel

theorem and_removeLeader (mask : BitVec 8) (role : LfgRole) :
    mask &&& ~~~playerRoleLeader &&& role.flag = mask &&& role.flag := by
  have hflag : ~~~playerRoleLeader &&& role.flag = role.flag := by
    revert role
    decide
  rw [BitVec.and_assoc, hflag]

theorem clean_removeLeader (h : mask &&& 0xF0#8 = 0) : Clean (mask &&& ~~~playerRoleLeader) := by
  have hflags : ~~~playerRoleLeader &&& 0xF1#8 = 0xF0#8 := by decide
  rw [Clean, BitVec.and_assoc, hflags, h]

/-! ## One player of a map -/

section Split

variable {before after : LfgRolesMap} {p : ℕ × BitVec 8} {roles : List LfgRole}

@[simp] theorem mask_split : LfgRolesMap.mask (before ++ p :: after) before.length = p.2 := by
  simp [LfgRolesMap.mask]

@[simp] theorem setMask_split (f : BitVec 8 → BitVec 8) :
    LfgRolesMap.setMask (before ++ p :: after) before.length f =
      before ++ (p.1, f p.2) :: after := by
  rw [LfgRolesMap.setMask]
  induction before with
  | nil => rfl
  | cons b before ih => simp [ih]

theorem width_split :
    LfgRolesMap.width (before ++ p :: after) =
      LfgRolesMap.width before + (width p.2 + LfgRolesMap.width after) := by
  simp [LfgRolesMap.width]

/-- The role of one player in a choice. -/
theorem choice_split : Choice (before ++ p :: after) roles ↔
    ∃ l q r, roles = l ++ q :: r ∧ p.2 &&& q.flag ≠ 0 ∧
      List.Forall₂ (fun p role => p.2 &&& role.flag ≠ 0) before l ∧
      List.Forall₂ (fun p role => p.2 &&& role.flag ≠ 0) after r ∧
      ∀ role, roles.count role ≤ role.needed := by
  constructor
  · rintro ⟨hforall, hcount⟩
    have hl := List.forall₂_take before.length hforall
    have hr := List.forall₂_drop before.length hforall
    rw [take_left] at hl
    rw [drop_left] at hr
    obtain ⟨q, r, hq, hafter, heq⟩ := List.forall₂_cons_left_iff.1 hr
    exact ⟨_, q, r, by rw [← heq, take_append_drop], hq, hl, hafter, hcount⟩
  · rintro ⟨l, q, r, rfl, hq, hl, hr, hcount⟩
    exact ⟨rel_append hl (.cons hq hr), hcount⟩

theorem assigned_split (mask : BitVec 8) :
    LfgRolesMap.assigned (before ++ (p.1, mask) :: after) roles =
      LfgRolesMap.assigned (before ++ p :: after) roles := by
  have hkeys : ∀ groles : LfgRolesMap, groles.assigned roles =
      List.zipWith (fun guid role => (guid, role.flag)) (groles.map Prod.fst) roles :=
    fun groles => by rw [LfgRolesMap.assigned, zipWith_map_left]
  rw [hkeys, hkeys, map_append, map_append, map_cons, map_cons]

variable {role : LfgRole}

/-- A choice out of fewer roles is one. -/
theorem Choice.of_sub (h : Clean p.2) (hrole : p.2 &&& role.flag ≠ 0)
    (hchoice : Choice (before ++ (p.1, p.2 - role.flag) :: after) roles) :
    Choice (before ++ p :: after) roles := by
  obtain ⟨l, q, r, heq, hq, hforall⟩ := choice_split.1 hchoice
  exact choice_split.2 ⟨l, q, r, heq, ((sub_and_iff h hrole q).1 hq).2, hforall⟩

/-- A choice is one out of fewer roles. -/
theorem Choice.exists_sub (h : Clean p.2) (hseveral : ∀ role : LfgRole, p.2 ≠ role.flag)
    (hchoice : Choice (before ++ p :: after) roles) :
    ∃ role : LfgRole, p.2 &&& role.flag ≠ 0 ∧
      Choice (before ++ (p.1, p.2 - role.flag) :: after) roles := by
  obtain ⟨l, q, r, heq, hq, hforall⟩ := choice_split.1 hchoice
  obtain ⟨role, hne, hrole⟩ := exists_other h hseveral hq
  exact ⟨role, hrole, choice_split.2
    ⟨l, q, r, heq, (sub_and_iff h hrole q).2 ⟨hne.symm, hq⟩, hforall⟩⟩

theorem Decides.of_sub (h : Clean p.2) (hrole : p.2 &&& role.flag ≠ 0) {left : LfgRolesMap}
    (hdecides : Decides (before ++ (p.1, p.2 - role.flag) :: after) (true, left)) :
    Decides (before ++ p :: after) (true, left) := by
  obtain ⟨roles, hchoice, rfl⟩ := hdecides
  exact ⟨roles, hchoice.of_sub h hrole, assigned_split _⟩

end Split

/-! ## Players with one role -/

/-- The players who play a role in any choice. -/
def LfgRolesMap.only (groles : LfgRolesMap) (role : LfgRole) : ℕ :=
  groles.countP fun p => p.2 = role.flag

theorem only_le_count {groles : LfgRolesMap} {roles : List LfgRole}
    (h : List.Forall₂ (fun p role => p.2 &&& role.flag ≠ 0) groles roles) (role : LfgRole) :
    groles.only role ≤ roles.count role := by
  induction h with
  | nil => exact le_rfl
  | @cons p q groles roles hq _ ih =>
    rw [LfgRolesMap.only, countP_cons, count_cons]
    refine Nat.add_le_add ih ?_
    by_cases hp : p.2 = role.flag
    · rw [hp, flag_and_flag_iff] at hq
      simp [hp, hq]
    · simp [hp]

theorem Choice.only_le {groles : LfgRolesMap} {roles : List LfgRole} (h : Choice groles roles)
    (role : LfgRole) : groles.only role ≤ role.needed :=
  (only_le_count h.1 role).trans (h.2 role)

theorem only_append (groles groles' : LfgRolesMap) (role : LfgRole) :
    LfgRolesMap.only (groles ++ groles') role = groles.only role + groles'.only role :=
  countP_append

theorem only_sum (groles : LfgRolesMap) :
    groles.only .tank + groles.only .healer + groles.only .damage =
      groles.countP fun p => ∃ role : LfgRole, p.2 = role.flag := by
  induction groles with
  | nil => rfl
  | cons p groles ih =>
    have hone : ([LfgRole.tank, .healer, .damage].map fun role =>
        if p.2 = role.flag then 1 else 0).sum =
          if ∃ role : LfgRole, p.2 = role.flag then 1 else 0 := by
      generalize p.2 = mask
      revert mask
      decide +kernel
    simp only [map_cons, map_nil, sum_cons, sum_nil] at hone
    simp only [LfgRolesMap.only, countP_cons, decide_eq_true_eq] at ih ⊢
    omega

/-- When all have one role, the map is the choice. -/
theorem choice_of_only {groles : LfgRolesMap}
    (h : ∀ p ∈ groles, ∃ role : LfgRole, p.2 = role.flag) :
    ∃ roles, List.Forall₂ (fun p role => p.2 &&& role.flag ≠ 0) groles roles ∧
      groles = groles.assigned roles ∧ ∀ role, roles.count role = groles.only role := by
  induction groles with
  | nil => exact ⟨[], .nil, rfl, fun _ => rfl⟩
  | cons p groles ih =>
    obtain ⟨roles, hforall, hassigned, hcount⟩ := ih fun q hq => h q (mem_cons_of_mem p hq)
    obtain ⟨q, hq⟩ := h p mem_cons_self
    refine ⟨q :: roles, .cons ?_ hforall, ?_, fun role => ?_⟩
    · rw [hq]
      exact (flag_and_flag_iff q q).2 rfl
    · rw [LfgRolesMap.assigned, zipWith_cons_cons, ← hq]
      exact congrArg (p :: ·) hassigned
    · rw [LfgRolesMap.only, countP_cons, count_cons, hcount, hq]
      simp [LfgRolesMap.only]

/-! ## The search -/

section Search

variable {again : LfgRolesMap → Option (Bool × LfgRolesMap)}
variable {before after groles : LfgRolesMap} {p : ℕ × BitVec 8} {taken : LfgRole → ℕ}
  {role : LfgRole}

/-- The calls in the middle of the loop, on smaller masks, decide. -/
def Answers (again : LfgRolesMap → Option (Bool × LfgRolesMap)) (groles : LfgRolesMap) : Prop :=
  ∀ narrow : LfgRolesMap, narrow.length = groles.length → (∀ p ∈ narrow, Clean p.2) →
    narrow.width < groles.width → ∃ r, again narrow = some r ∧ Decides narrow r

theorem checkRole_of_not_mem (h : p.2 &&& role.flag = 0) :
    checkRole again before.length role (before ++ p :: after) taken =
      some (.next (before ++ p :: after) taken) := by
  rw [checkRole, mask_split, if_pos h]

theorem checkRole_of_only (h : p.2 = role.flag) :
    checkRole again before.length role (before ++ p :: after) taken =
      if taken role = role.needed then some (.ret false (before ++ p :: after))
      else some (.next (before ++ p :: after) (update taken role (taken role + 1))) := by
  rw [checkRole, mask_split, h, if_neg ((flag_and_flag_iff role role).2 rfl),
    if_neg (not_not.2 rfl)]

/-- A player with several roles : there is a choice without this one, or the role is given back. -/
theorem checkRole_of_several (hagain : Answers again (before ++ p :: after))
    (hclean : ∀ q ∈ before ++ p :: after, Clean q.2) (hseveral : ∀ role : LfgRole, p.2 ≠ role.flag)
    (taken : LfgRole → ℕ) (role : LfgRole) :
    (∃ left, checkRole again before.length role (before ++ p :: after) taken =
        some (.ret true left) ∧ Decides (before ++ p :: after) (true, left)) ∨
      checkRole again before.length role (before ++ p :: after) taken =
          some (.next (before ++ p :: after) taken) ∧
        (p.2 &&& role.flag ≠ 0 →
          ∀ roles, ¬ Choice (before ++ (p.1, p.2 - role.flag) :: after) roles) := by
  by_cases hrole : p.2 &&& role.flag = 0
  · exact .inr ⟨checkRole_of_not_mem hrole, fun h => (h hrole).elim⟩
  · have hp := hclean p (mem_append_right _ mem_cons_self)
    obtain ⟨⟨answer, left⟩, hcall, hdecides⟩ :=
      hagain (before ++ (p.1, p.2 - role.flag) :: after) (by simp)
        (by
          intro q hq
          rcases mem_append.1 hq with hq | hq
          · exact hclean q (mem_append_left _ hq)
          · rcases mem_cons.1 hq with rfl | hq
            · exact hp.sub hrole
            · exact hclean q (mem_append_right _ (mem_cons_of_mem p hq)))
        (by
          have hlt := width_sub_lt hp hrole
          rw [width_split, width_split]
          dsimp only
          omega)
    rw [checkRole, mask_split, if_neg hrole, if_pos (hseveral role), setMask_split, hcall]
    cases answer with
    | true => exact .inl ⟨left, rfl, hdecides.of_sub hp hrole⟩
    | false =>
      obtain ⟨rfl, hnone⟩ := hdecides
      refine .inr ⟨?_, fun _ => hnone⟩
      simp only [setMask_split, BitVec.sub_add_cancel]

theorem checkPlayer_of_several (hagain : Answers again (before ++ p :: after))
    (hclean : ∀ q ∈ before ++ p :: after, Clean q.2) (hne : p.2 ≠ playerRoleNone)
    (hseveral : ∀ role : LfgRole, p.2 ≠ role.flag) (taken : LfgRole → ℕ) :
    (∃ left, checkPlayer again before.length (before ++ p :: after) taken =
        some (.ret true left) ∧ Decides (before ++ p :: after) (true, left)) ∨
      checkPlayer again before.length (before ++ p :: after) taken =
          some (.next (before ++ p :: after) taken) ∧
        ∀ roles, ¬ Choice (before ++ p :: after) roles := by
  have hcheck := checkRole_of_several hagain hclean hseveral taken
  rw [checkPlayer, mask_split, if_neg hne]
  rcases hcheck .damage with ⟨left, hd, hdecides⟩ | ⟨hd, hnoDamage⟩
  · exact .inl ⟨left, by rw [hd, RoleCheck.andThen], hdecides⟩
  rcases hcheck .healer with ⟨left, hh, hdecides⟩ | ⟨hh, hnoHealer⟩
  · exact .inl ⟨left, by simp only [hd, RoleCheck.andThen, hh], hdecides⟩
  rcases hcheck .tank with ⟨left, ht, hdecides⟩ | ⟨ht, hnoTank⟩
  · exact .inl ⟨left, by simp only [hd, RoleCheck.andThen, hh, ht], hdecides⟩
  refine .inr ⟨by simp only [hd, RoleCheck.andThen, hh, ht], fun roles hchoice => ?_⟩
  have hp := hclean p (mem_append_right _ mem_cons_self)
  obtain ⟨role, hrole, hsub⟩ := hchoice.exists_sub hp hseveral
  cases role with
  | tank => exact hnoTank hrole roles hsub
  | healer => exact hnoHealer hrole roles hsub
  | damage => exact hnoDamage hrole roles hsub

theorem checkPlayer_of_only (h : p.2 = role.flag) :
    checkPlayer again before.length (before ++ p :: after) taken =
      if taken role = role.needed then some (.ret false (before ++ p :: after))
      else some (.next (before ++ p :: after) (update taken role (taken role + 1))) := by
  have hne : p.2 ≠ playerRoleNone := h ▸ flag_ne_none role
  have hother : ∀ q : LfgRole, q ≠ role → p.2 &&& q.flag = 0 := fun q hq => by
    rw [h]
    exact not_not.1 fun hflag => hq ((flag_and_flag_iff role q).1 hflag)
  rw [checkPlayer, mask_split, if_neg hne]
  cases role with
  | damage =>
    rw [checkRole_of_only h]
    split_ifs
    · rfl
    · simp only [RoleCheck.andThen, checkRole_of_not_mem (hother .healer (by decide)),
        checkRole_of_not_mem (hother .tank (by decide))]
  | healer =>
    rw [checkRole_of_not_mem (hother .damage (by decide))]
    simp only [RoleCheck.andThen, checkRole_of_only h]
    split_ifs
    · rfl
    · simp only [checkRole_of_not_mem (hother .tank (by decide))]
  | tank =>
    rw [checkRole_of_not_mem (hother .damage (by decide))]
    simp only [RoleCheck.andThen, checkRole_of_not_mem (hother .healer (by decide)),
      checkRole_of_only h]

/-- What the loop knows of the players it has seen. -/
structure Seen (groles before : LfgRolesMap) (taken : LfgRole → ℕ) : Prop where
  taken_eq : ∀ role, taken role = before.only role
  le : ∀ role, taken role ≤ role.needed
  several : (∃ p ∈ before, ∀ role : LfgRole, p.2 ≠ role.flag) → ∀ roles, ¬ Choice groles roles

theorem Seen.only (h : Seen groles before taken) (hp : p.2 = role.flag)
    (hne : taken role ≠ role.needed) :
    Seen groles (before ++ [p]) (update taken role (taken role + 1)) where
  taken_eq q := by
    rw [only_append, LfgRolesMap.only, LfgRolesMap.only, countP_singleton, hp]
    by_cases hq : q = role
    · simp [hq, h.taken_eq, LfgRolesMap.only]
    · simp [hq, h.taken_eq, LfgRolesMap.only, Ne.symm hq]
  le q := by
    by_cases hq : q = role
    · have hle := h.le role
      simp only [hq, update_self]
      omega
    · simpa [hq] using h.le q
  several := by
    rintro ⟨a, ha, hseveral⟩
    rcases mem_append.1 ha with ha | ha
    · exact h.several ⟨a, ha, hseveral⟩
    · obtain rfl := mem_singleton.1 ha
      exact (hseveral role hp).elim

theorem Seen.skip (h : Seen groles before taken) (hseveral : ∀ role : LfgRole, p.2 ≠ role.flag)
    (hnone : ∀ roles, ¬ Choice groles roles) : Seen groles (before ++ [p]) taken where
  taken_eq role := by
    rw [only_append, h.taken_eq]
    simp [LfgRolesMap.only, hseveral role]
  le := h.le
  several _ := hnone

theorem checkPlayers_end (h : Seen groles groles taken) (hlen : groles.length < 256) (i : ℕ) :
    ∃ r, checkPlayers again 0 i groles taken = some r ∧ Decides groles r := by
  have hsum := only_sum groles
  rw [← h.taken_eq, ← h.taken_eq, ← h.taken_eq] at hsum
  refine ⟨_, rfl, ?_⟩
  rw [hsum, Nat.mod_eq_of_lt hlen]
  by_cases hall : ∀ p ∈ groles, ∃ role : LfgRole, p.2 = role.flag
  · obtain ⟨roles, hforall, hassigned, hcount⟩ := choice_of_only hall
    have hlength : groles.countP (fun p => ∃ role : LfgRole, p.2 = role.flag) = groles.length :=
      countP_eq_length.2 fun p hp => decide_eq_true (hall p hp)
    rw [decide_eq_true hlength]
    refine ⟨roles, ⟨hforall, fun role => ?_⟩, hassigned⟩
    rw [hcount, ← h.taken_eq]
    exact h.le role
  · have hlength : groles.countP (fun p => ∃ role : LfgRole, p.2 = role.flag) ≠ groles.length :=
      fun hlength => hall fun p hp => of_decide_eq_true (countP_eq_length.1 hlength p hp)
    rw [decide_eq_false hlength]
    push Not at hall
    exact ⟨rfl, h.several hall⟩

theorem checkPlayers_decides (hlen : groles.length < 256) (hclean : ∀ p ∈ groles, Clean p.2)
    (hagain : Answers again groles) {rest before : LfgRolesMap} {taken : LfgRole → ℕ}
    (heq : groles = before ++ rest) (h : Seen groles before taken) :
    ∃ r, checkPlayers again rest.length before.length groles taken = some r ∧
      Decides groles r := by
  induction rest generalizing before taken with
  | nil =>
    rw [append_nil] at heq
    subst heq
    exact checkPlayers_end h hlen _
  | cons p after ih =>
    have hnext : groles = (before ++ [p]) ++ after := by simp [heq]
    have hlength : (before ++ [p]).length = before.length + 1 := by simp
    rw [length_cons, checkPlayers]
    subst heq
    by_cases hne : p.2 = playerRoleNone
    · refine ⟨(false, before ++ p :: after), ?_, rfl, fun roles hchoice => ?_⟩
      · rw [checkPlayer, mask_split, if_pos hne]
      · obtain ⟨l, q, r, -, hq, -⟩ := choice_split.1 hchoice
        exact hq (by rw [hne]; exact BitVec.zero_and)
    by_cases hone : ∃ role : LfgRole, p.2 = role.flag
    · obtain ⟨role, hrole⟩ := hone
      rw [checkPlayer_of_only hrole]
      by_cases hfull : taken role = role.needed
      · rw [if_pos hfull]
        refine ⟨(false, before ++ p :: after), rfl, rfl, fun roles hchoice => ?_⟩
        have hle := hchoice.only_le role
        rw [only_append, ← h.taken_eq, hfull, LfgRolesMap.only, countP_cons_of_pos (by simpa)]
          at hle
        omega
      · rw [if_neg hfull]
        have hih := ih hnext (h.only hrole hfull)
        rwa [hlength] at hih
    · push Not at hone
      rcases checkPlayer_of_several hagain hclean hne hone taken with
        ⟨left, hcall, hdecides⟩ | ⟨hcall, hnone⟩
      · exact ⟨(true, left), by rw [hcall], hdecides⟩
      · rw [hcall]
        have hih := ih hnext (h.skip hone hnone)
        rwa [hlength] at hih

end Search

/-- The search ends and decides. -/
theorem checkGroupRoles_eq_some {fuel : ℕ} {groles : LfgRolesMap} (hfuel : groles.width < fuel)
    (hne : groles ≠ []) (hlen : groles.length < 256) (hclean : ∀ p ∈ groles, Clean p.2) :
    ∃ r, checkGroupRoles fuel groles false = some r ∧ Decides groles r := by
  induction fuel generalizing groles with
  | zero => omega
  | succ fuel ih =>
    rw [checkGroupRoles, if_neg hne]
    refine checkPlayers_decides hlen hclean ?_ (nil_append groles).symm
      ⟨fun _ => rfl, by simp, by simp⟩
    intro narrow hlength hnarrow hwidth
    refine ih (by omega) ?_ (by omega) hnarrow
    rintro rfl
    exact hne (length_eq_zero_iff.1 hlength.symm)

theorem width_le (groles : LfgRolesMap) : groles.width ≤ 3 * groles.length := by
  induction groles with
  | nil => exact le_rfl
  | cons p groles ih =>
    have hle : width p.2 ≤ 3 := countP_le_length
    simp only [LfgRolesMap.width, map_cons, sum_cons, length_cons] at ih ⊢
    omega

theorem choice_removeLeader {groles : LfgRolesMap} {roles : List LfgRole} :
    Choice groles.removeLeader roles ↔ Choice groles roles := by
  rw [Choice, Choice, LfgRolesMap.removeLeader, List.forall₂_map_left_iff]
  simp only [and_removeLeader]

theorem assigned_removeLeader (groles : LfgRolesMap) (roles : List LfgRole) :
    groles.removeLeader.assigned roles = groles.assigned roles := by
  rw [LfgRolesMap.assigned, LfgRolesMap.removeLeader, zipWith_map_left]
  rfl

/-- The search of the first call. -/
theorem checkGroupRoles_removeLeader {groles : LfgRolesMap} (hne : groles ≠ [])
    (hlen : groles.length < 256) (hmasks : ∀ p ∈ groles, p.2 &&& 0xF0#8 = 0) {fuel : ℕ}
    (hfuel : 3 * groles.length < fuel) :
    ∃ r, checkGroupRoles fuel groles true = some r ∧ Decides groles.removeLeader r := by
  have hlength : groles.removeLeader.length = groles.length := length_map ..
  have hne' : groles.removeLeader ≠ [] := by simpa [LfgRolesMap.removeLeader] using hne
  have hcall : checkGroupRoles fuel groles true =
      checkGroupRoles fuel groles.removeLeader false := by
    cases fuel with
    | zero => rfl
    | succ fuel =>
      rw [checkGroupRoles, checkGroupRoles, if_neg hne, if_neg hne']
      rfl
  have hwidth : groles.removeLeader.width < fuel :=
    lt_of_le_of_lt (width_le _) (by rwa [hlength])
  rw [hcall]
  refine checkGroupRoles_eq_some hwidth hne' (by rwa [hlength]) fun q hq => ?_
  obtain ⟨p, hp, rfl⟩ := mem_map.1 hq
  exact clean_removeLeader (hmasks p hp)

/-- `CheckGroupRoles` ends. It answers whether there is a choice and leaves one in the map, or
leaves the map without the leader flags. -/
theorem checkGroupRoles_decides (groles : LfgRolesMap) (hne : groles ≠ [])
    (hlen : groles.length < 256) (hmasks : ∀ p ∈ groles, p.2 &&& 0xF0#8 = 0) (fuel : ℕ)
    (hfuel : 3 * groles.length < fuel) :
    ∃ answer left, checkGroupRoles fuel groles true = some (answer, left) ∧
      (answer = true ↔ ∃ roles, Choice groles roles) ∧
      (answer = true → ∃ roles, Choice groles roles ∧ left = groles.assigned roles) ∧
      (answer = false → left = groles.removeLeader) := by
  obtain ⟨⟨answer, left⟩, hsome, hdecides⟩ := checkGroupRoles_removeLeader hne hlen hmasks hfuel
  refine ⟨answer, left, hsome, ?_⟩
  cases answer with
  | true =>
    obtain ⟨roles, hchoice, rfl⟩ := hdecides
    rw [choice_removeLeader] at hchoice
    rw [assigned_removeLeader]
    exact ⟨⟨fun _ => ⟨roles, hchoice⟩, fun _ => rfl⟩, fun _ => ⟨roles, hchoice, rfl⟩, nofun⟩
  | false =>
    obtain ⟨rfl, hnone⟩ := hdecides
    simp only [choice_removeLeader] at hnone
    exact ⟨⟨nofun, fun ⟨roles, hroles⟩ => (hnone roles hroles).elim⟩, nofun, fun _ => rfl⟩

/-- A leader who is tank or healer, a healer, and a tank or damage dealer. -/
def mixedRoles : LfgRolesMap :=
  [(1, 0x07#8), (2, 0x04#8), (3, 0x0A#8)]

theorem checkGroupRoles_mixed : ∃ roles, Choice mixedRoles roles ∧
    checkGroupRoles 10 mixedRoles true = some (true, mixedRoles.assigned roles) := by
  obtain ⟨answer, left, hsome, hanswer, hleft, -⟩ :=
    checkGroupRoles_decides mixedRoles (by decide) (by decide) (by decide) 10 (by decide)
  obtain rfl := hanswer.2 ⟨[.tank, .healer, .damage], by decide, by decide⟩
  obtain ⟨roles, hchoice, rfl⟩ := hleft rfl
  exact ⟨roles, hchoice, hsome⟩

end MistyWorld
