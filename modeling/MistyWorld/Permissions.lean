import MistyWorld.Run
import MistyWorld.Worklist

/-!
# Account permissions

An account has granted and denied permissions, and permissions link to others. `RBACData`
keeps the two lists and the permissions calculated from them, which `HasPermission` asks.
Calculated should be what the granted permissions reach without what the denied ones reach
(`Effective`). `CalculateNewPermissions` takes the granted ones from the denied ones instead,
so that nothing is denied (`hasPermission_iff`) : the calculation is right exactly when no
permission is reached from both lists (`permissions_run`).
-/

open Machine

namespace MistyWorld

/-! ## The permissions -/

/-- What `AccountMgr` keeps : the permissions with their links, and the default permissions of
each security level in the order of the set. -/
structure RBACTable where
  permissions : LinkGraph ℕ
  defaultPermissions : ℕ → List ℕ := fun _ => []

inductive RBACCommandResult
  | ok
  | cantAddAlreadyAdded
  | cantRevokeNotInList
  | inGrantedList
  | inDeniedList
  | idDoesNotExists
  deriving DecidableEq, Repr

structure RBACData where
  secLevel : ℕ := 255
  grantedPerms : Finset ℕ := ∅
  deniedPerms : Finset ℕ := ∅
  globalPerms : Finset ℕ := ∅

namespace RBACData

variable (t : RBACTable)

/-- `AccountMgr::GetRBACPermission`. -/
def getRBACPermission (permissionId : ℕ) : Option (Finset ℕ) :=
  t.permissions.links permissionId

/-- `RBACData::HasPermission`. `freeMode` is the setting `CONFIG_RBAC_FREE_PERMISSION_MODE`. -/
def hasPermission (d : RBACData) (freeMode : Bool) (permission : ℕ) : Bool :=
  if freeMode then true else permission ∈ d.globalPerms

/-- `RBACData::ExpandPermissions`. -/
def expandPermissions (permissions : Finset ℕ) : Finset ℕ :=
  (Worklist.start permissions).expand t.permissions

/-- `RBACData::RemovePermissions` : the new value of `permsTo`. -/
def removePermissions (permsFrom permsTo : Finset ℕ) : Finset ℕ :=
  permsTo \ permsFrom

/-- `RBACData::CalculateNewPermissions`. What the last call changes is the local `revoked`. -/
def calculateNewPermissions (d : RBACData) : RBACData :=
  let globalPerms := expandPermissions t d.grantedPerms
  let revoked := expandPermissions t d.deniedPerms
  let _revoked := removePermissions globalPerms revoked
  { d with globalPerms := globalPerms }

/-- `RBACData::GrantPermission`. -/
def grantPermission (d : RBACData) (permissionId : ℕ) (realmId : ℤ) :
    RBACData × RBACCommandResult :=
  match getRBACPermission t permissionId with
  | none => (d, .idDoesNotExists)
  | some _ =>
    if permissionId ∈ d.deniedPerms then (d, .inDeniedList)
    else if permissionId ∈ d.grantedPerms then (d, .cantAddAlreadyAdded)
    else
      let d := { d with grantedPerms := insert permissionId d.grantedPerms }
      (if realmId ≠ 0 then d.calculateNewPermissions t else d, .ok)

/-- `RBACData::DenyPermission`. -/
def denyPermission (d : RBACData) (permissionId : ℕ) (realmId : ℤ) :
    RBACData × RBACCommandResult :=
  match getRBACPermission t permissionId with
  | none => (d, .idDoesNotExists)
  | some _ =>
    if permissionId ∈ d.grantedPerms then (d, .inGrantedList)
    else if permissionId ∈ d.deniedPerms then (d, .cantAddAlreadyAdded)
    else
      let d := { d with deniedPerms := insert permissionId d.deniedPerms }
      (if realmId ≠ 0 then d.calculateNewPermissions t else d, .ok)

/-- `RBACData::RevokePermission`. -/
def revokePermission (d : RBACData) (permissionId : ℕ) (realmId : ℤ) :
    RBACData × RBACCommandResult :=
  if permissionId ∉ d.grantedPerms ∧ permissionId ∉ d.deniedPerms then
    (d, .cantRevokeNotInList)
  else
    let d := { d with
      grantedPerms := d.grantedPerms.erase permissionId
      deniedPerms := d.deniedPerms.erase permissionId }
    (if realmId ≠ 0 then d.calculateNewPermissions t else d, .ok)

/-- The row of an account : a permission, and whether it is granted. -/
def loadRow (d : RBACData) (row : ℕ × Bool) : RBACData :=
  if row.2 then (d.grantPermission t row.1 0).1 else (d.denyPermission t row.1 0).1

/-- `RBACData::LoadFromDB`. -/
def loadFromDB (d : RBACData) (rows : List (ℕ × Bool)) : RBACData :=
  let d := { d with grantedPerms := ∅, deniedPerms := ∅, globalPerms := ∅ }
  let d := rows.foldl (loadRow t) d
  let d := (t.defaultPermissions d.secLevel).foldl (fun d p => (d.grantPermission t p 0).1) d
  d.calculateNewPermissions t

/-- The commands on an account, with the realm that is not zero. -/
inductive Command
  | grant (permissionId : ℕ) (realmId : ℤ) (h : realmId ≠ 0)
  | deny (permissionId : ℕ) (realmId : ℤ) (h : realmId ≠ 0)
  | revoke (permissionId : ℕ) (realmId : ℤ) (h : realmId ≠ 0)

def serve (d : RBACData) : Command → RBACData
  | .grant permissionId realmId _ => (d.grantPermission t permissionId realmId).1
  | .deny permissionId realmId _ => (d.denyPermission t permissionId realmId).1
  | .revoke permissionId realmId _ => (d.revokePermission t permissionId realmId).1

/-- An account that is loaded and then changed by commands. -/
def session (d : RBACData) (rows : List (ℕ × Bool)) (cs : List Command) : RBACData :=
  run (serve t) (d.loadFromDB t rows) cs

/-! ## Permissions by links -/

/-- The permission is reached through links from one of the list. -/
def Reached (perms : Finset ℕ) (p : ℕ) : Prop :=
  ∃ q ∈ perms, t.permissions.Reaches q p

/-- The account has what its granted permissions reach and its denied ones do not. -/
def Effective (d : RBACData) : Prop :=
  ∀ p, d.hasPermission false p = true ↔ Reached t d.grantedPerms p ∧ ¬Reached t d.deniedPerms p

/-! ## The invariant -/

/-- The two lists have nothing in common. -/
def Consistent (d : RBACData) : Prop :=
  Disjoint d.grantedPerms d.deniedPerms

/-- The permissions are calculated. -/
def Calculated (d : RBACData) : Prop :=
  d.globalPerms = expandPermissions t d.grantedPerms

variable {t} {d : RBACData}

theorem calculated_calculateNewPermissions (d : RBACData) :
    (d.calculateNewPermissions t).Calculated t :=
  rfl

theorem Consistent.grantPermission (h : d.Consistent) (p : ℕ) (realmId : ℤ) :
    (d.grantPermission t p realmId).1.Consistent := by
  unfold RBACData.grantPermission
  split
  · exact h
  · have hinsert : p ∉ d.deniedPerms → Disjoint (insert p d.grantedPerms) d.deniedPerms :=
      fun hp => Finset.disjoint_insert_left.2 ⟨hp, h⟩
    split_ifs with hdenied
    · exact h
    · exact h
    · exact hinsert hdenied
    · exact hinsert hdenied

theorem Consistent.denyPermission (h : d.Consistent) (p : ℕ) (realmId : ℤ) :
    (d.denyPermission t p realmId).1.Consistent := by
  unfold RBACData.denyPermission
  split
  · exact h
  · have hinsert : p ∉ d.grantedPerms → Disjoint d.grantedPerms (insert p d.deniedPerms) :=
      fun hp => Finset.disjoint_insert_right.2 ⟨hp, h⟩
    split_ifs with hgranted
    · exact h
    · exact h
    · exact hinsert hgranted
    · exact hinsert hgranted

theorem Consistent.revokePermission (h : d.Consistent) (p : ℕ) (realmId : ℤ) :
    (d.revokePermission t p realmId).1.Consistent := by
  unfold RBACData.revokePermission
  have herase : Disjoint (d.grantedPerms.erase p) (d.deniedPerms.erase p) :=
    h.mono (Finset.erase_subset _ _) (Finset.erase_subset _ _)
  split_ifs
  · exact h
  · exact herase
  · exact herase

theorem Calculated.grantPermission (h : d.Calculated t) (p : ℕ) {realmId : ℤ}
    (hr : realmId ≠ 0) : (d.grantPermission t p realmId).1.Calculated t := by
  unfold RBACData.grantPermission
  split
  · exact h
  · split_ifs
    · exact h
    · exact h
    · exact calculated_calculateNewPermissions _

/-- A denial leaves the granted permissions. -/
theorem Calculated.denyPermission (h : d.Calculated t) (p : ℕ) {realmId : ℤ}
    (hr : realmId ≠ 0) : (d.denyPermission t p realmId).1.Calculated t := by
  unfold RBACData.denyPermission
  split
  · exact h
  · split_ifs
    · exact h
    · exact h
    · exact calculated_calculateNewPermissions _

theorem Calculated.revokePermission (h : d.Calculated t) (p : ℕ) {realmId : ℤ}
    (hr : realmId ≠ 0) : (d.revokePermission t p realmId).1.Calculated t := by
  unfold RBACData.revokePermission
  split_ifs
  · exact h
  · exact calculated_calculateNewPermissions _

theorem consistent_loadRows : ∀ (rows : List (ℕ × Bool)) {d : RBACData}, d.Consistent →
    (rows.foldl (loadRow t) d).Consistent
  | [], _, h => h
  | row :: rows, d, h => by
    refine consistent_loadRows rows ?_
    unfold loadRow
    split_ifs
    · exact h.grantPermission row.1 0
    · exact h.denyPermission row.1 0

theorem consistent_grantAll : ∀ (perms : List ℕ) {d : RBACData}, d.Consistent →
    (perms.foldl (fun d p => (d.grantPermission t p 0).1) d).Consistent
  | [], _, h => h
  | p :: perms, _, h => consistent_grantAll perms (h.grantPermission p 0)

/-- Loading builds consistent lists and calculates the permissions. -/
theorem loadFromDB_invariant (d : RBACData) (rows : List (ℕ × Bool)) :
    (d.loadFromDB t rows).Consistent ∧ (d.loadFromDB t rows).Calculated t := by
  refine ⟨?_, calculated_calculateNewPermissions _⟩
  have hempty : Consistent { d with grantedPerms := ∅, deniedPerms := ∅, globalPerms := ∅ } :=
    Finset.disjoint_empty_left _
  exact consistent_grantAll _ (consistent_loadRows rows hempty)

/-- A command keeps the lists consistent and the permissions calculated. -/
theorem serve_invariant (d : RBACData) (c : Command) (h : d.Consistent ∧ d.Calculated t) :
    (d.serve t c).Consistent ∧ (d.serve t c).Calculated t := by
  cases c with
  | grant p realmId hr => exact ⟨h.1.grantPermission p realmId, h.2.grantPermission p hr⟩
  | deny p realmId hr => exact ⟨h.1.denyPermission p realmId, h.2.denyPermission p hr⟩
  | revoke p realmId hr => exact ⟨h.1.revokePermission p realmId, h.2.revokePermission p hr⟩

/-- The laws hold after a load and any commands. -/
theorem session_invariant (d : RBACData) (rows : List (ℕ × Bool)) (cs : List Command) :
    (session t d rows cs).Consistent ∧ (session t d rows cs).Calculated t :=
  invariant_run (C := fun _ _ => True) (fun d c h _ => serve_invariant d c h)
    (loadFromDB_invariant d rows) (along_iff.2 fun _ _ _ _ => trivial)

/-! ## What the calculation gives -/

/-- The account has all that its granted permissions reach, whatever is denied. -/
theorem Calculated.hasPermission_iff (h : d.Calculated t) (p : ℕ) :
    d.hasPermission false p = true ↔ Reached t d.grantedPerms p := by
  rw [hasPermission, if_neg Bool.false_ne_true, decide_eq_true_eq, h, expandPermissions,
    Worklist.mem_expand]
  exact Iff.rfl

theorem Calculated.effective_iff (h : d.Calculated t) :
    d.Effective t ↔ ∀ p, ¬(Reached t d.grantedPerms p ∧ Reached t d.deniedPerms p) := by
  simp only [Effective, h.hasPermission_iff]
  constructor
  · rintro heff p ⟨hgranted, hdenied⟩
    exact ((heff p).1 hgranted).2 hdenied
  · intro hnone p
    exact ⟨fun hgranted => ⟨hgranted, fun hdenied => hnone p ⟨hgranted, hdenied⟩⟩, And.left⟩

end RBACData

open RBACData in
/-- In every state of an account no permission is in both lists, the loops of the calculation
end, and the account has what is granted and not denied exactly when no permission is reached
from both lists. -/
theorem permissions_run (t : RBACTable) (d : RBACData) (rows : List (ℕ × Bool))
    (cs : List Command) :
    Disjoint (session t d rows cs).grantedPerms (session t d rows cs).deniedPerms ∧
      (∀ perms : Finset ℕ, ∃ n, ((Worklist.advance t.permissions)^[n]
        (Worklist.start perms)).toCheck = ∅) ∧
      ((session t d rows cs).Effective t ↔
        ∀ p, ¬(Reached t (session t d rows cs).grantedPerms p ∧
          Reached t (session t d rows cs).deniedPerms p)) := by
  obtain ⟨hconsistent, hcalculated⟩ := session_invariant (t := t) d rows cs
  refine ⟨hconsistent, fun perms => ?_, hcalculated.effective_iff⟩
  obtain ⟨n, hn, -⟩ := Worklist.ends t.permissions (Worklist.start perms)
  exact ⟨n, hn⟩

/-- Two permissions, of which the first links to the second. -/
def linkedTable : RBACTable where
  permissions :=
    { links := fun p => if p = 1 then some {2} else if p = 2 then some ∅ else none
      nodes := {1, 2}
      mem_nodes := by
        intro p l h
        split_ifs at h with h₁ h₂
        · subst h₁
          decide
        · subst h₂
          decide }

open RBACData in
/-- The account is granted the first permission and denied the second, and has the second. -/
theorem denied_hasPermission :
    (session linkedTable {} [(1, true), (2, false)] []).hasPermission false 2 = true ∧
      2 ∈ (session linkedTable {} [(1, true), (2, false)] []).deniedPerms ∧
      ¬(session linkedTable {} [(1, true), (2, false)] []).Effective linkedTable := by
  have hgranted : (1 : ℕ) ∈ (session linkedTable {} [(1, true), (2, false)] []).grantedPerms := by
    decide
  have hdenied : (2 : ℕ) ∈ (session linkedTable {} [(1, true), (2, false)] []).deniedPerms := by
    decide
  have htwo : linkedTable.permissions.Reaches 2 2 := .refl (l := ∅) rfl
  have hreached : Reached linkedTable
      (session linkedTable {} [(1, true), (2, false)] []).grantedPerms 2 :=
    ⟨1, hgranted, .step (l := {2}) rfl (by decide) htwo⟩
  have hcalculated := (session_invariant (t := linkedTable) {} [(1, true), (2, false)] []).2
  have hhas := (hcalculated.hasPermission_iff 2).2 hreached
  exact ⟨hhas, hdenied, fun heff => ((heff 2).1 hhas).2 ⟨2, hdenied, htwo⟩⟩

end MistyWorld
