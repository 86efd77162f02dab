import Mathlib.Data.List.Basic
import Mathlib.Data.List.Pairwise
import Mathlib.Logic.Function.Basic

/-!
# Loading the arena teams

`LoadArenaTeams` goes through the teams of the database, and `LoadMembersFromDB` through the rows of
the members, which are sorted by the team and have a cursor of their own. It stops at the first row
of a later team and leaves it to that team. A row of a missing character is deleted, and a team
without its captain is disbanded. So with both results sorted every row comes to the team that it
names (`loadArenaTeams_spec`).

A cursor is the list of the rows from the current one on. No rows are left when `NextRow` has
returned false, and then there are no fields, as when the query has no result. Players are not
online while the teams are loaded. `HIGHGUID_PLAYER` is zero, so that the guid of a player is his
low guid.
-/

open Function List

namespace MistyWorld

/-! ## Rows and teams -/

/-- A row of `arena_team`. -/
structure ArenaTeamRow where
  arenaTeamId : ℕ
  name : String
  captainGuid : ℕ
  type : ℕ := 2
  backgroundColor : ℕ := 0
  emblemStyle : ℕ := 0
  emblemColor : ℕ := 0
  borderStyle : ℕ := 0
  borderColor : ℕ := 0
  rating : ℕ := 0
  weekGames : ℕ := 0
  weekWins : ℕ := 0
  seasonGames : ℕ := 0
  seasonWins : ℕ := 0
  rank : ℕ := 0
  deriving DecidableEq

/-- A row of `arena_team_member`, with the name and the class of the character and his ratings. -/
structure ArenaTeamMemberRow where
  arenaTeamId : ℕ
  guid : ℕ
  weekGames : ℕ := 0
  weekWins : ℕ := 0
  seasonGames : ℕ := 0
  seasonWins : ℕ := 0
  name : String
  class_ : ℕ := 1
  personalRating : ℕ := 0
  matchMakerRating : ℕ := 0
  deriving DecidableEq

/-- `ArenaTeamMember` -/
structure ArenaTeamMember where
  guid : ℕ
  name : String
  class_ : ℕ
  weekGames : ℕ
  weekWins : ℕ
  seasonGames : ℕ
  seasonWins : ℕ
  personalRating : ℕ
  matchMakerRating : ℕ
  deriving DecidableEq

/-- `ArenaTeamStats` -/
structure ArenaTeamStats where
  rating : ℕ
  weekGames : ℕ
  weekWins : ℕ
  seasonGames : ℕ
  seasonWins : ℕ
  rank : ℕ
  deriving DecidableEq

/-- `ArenaTeam` -/
structure ArenaTeam where
  teamId : ℕ
  type : ℕ
  teamName : String
  captainGuid : ℕ
  backgroundColor : ℕ
  emblemStyle : ℕ
  emblemColor : ℕ
  borderStyle : ℕ
  borderColor : ℕ
  stats : ArenaTeamStats
  members : List ArenaTeamMember
  deriving DecidableEq

/-- The statements that are executed. -/
inductive ArenaTeamStatement
  | delArenaTeam (arenaTeamId : ℕ)
  | delArenaTeamMembers (arenaTeamId : ℕ)
  | delArenaTeamMember (arenaTeamId guid : ℕ)
  deriving DecidableEq

/-- `ArenaTeamMgr`, with the statements that were executed. -/
structure ArenaTeamMgr where
  arenaTeamStore : ℕ → Option ArenaTeam := fun _ => none
  statements : List ArenaTeamStatement := []

namespace ArenaTeam

/-- `ArenaTeam::LoadArenaTeamFromDB` -/
def loadArenaTeamFromDB (fields : ArenaTeamRow) : ArenaTeam where
  teamId := fields.arenaTeamId
  teamName := fields.name
  captainGuid := fields.captainGuid
  type := fields.type
  backgroundColor := fields.backgroundColor
  emblemStyle := fields.emblemStyle
  emblemColor := fields.emblemColor
  borderStyle := fields.borderStyle
  borderColor := fields.borderColor
  stats := {
    rating := fields.rating
    weekGames := fields.weekGames
    weekWins := fields.weekWins
    seasonGames := fields.seasonGames
    seasonWins := fields.seasonWins
    rank := fields.rank }
  members := []

/-- `ArenaTeam::DelMember`, with the statements. -/
def delMember (team : ArenaTeam) (guid : ℕ) (cleanDb : Bool) :
    ArenaTeam × List ArenaTeamStatement :=
  ({ team with members := team.members.eraseP fun m => m.guid = guid },
    if cleanDb then [.delArenaTeamMember team.teamId guid] else [])

/-- `newMember` -/
def newMember (fields : ArenaTeamMemberRow) : ArenaTeamMember where
  guid := fields.guid
  weekGames := fields.weekGames
  weekWins := fields.weekWins
  seasonGames := fields.seasonGames
  seasonWins := fields.seasonWins
  name := fields.name
  class_ := fields.class_
  personalRating := fields.personalRating
  matchMakerRating := if 0 < fields.matchMakerRating then fields.matchMakerRating else 1500

/-- The loop of `LoadMembersFromDB`, which returns the team, whether the captain is present, the
statements and the cursor. -/
def loadMembersLoop (team : ArenaTeam) (captainPresentInTeam : Bool)
    (statements : List ArenaTeamStatement) : List ArenaTeamMemberRow →
      (ArenaTeam × Bool) × List ArenaTeamStatement × List ArenaTeamMemberRow
  | [] => ((team, captainPresentInTeam), statements, [])
  | fields :: result =>
    if team.teamId < fields.arenaTeamId then
      ((team, captainPresentInTeam), statements, fields :: result)
    else
      let newMember := newMember fields
      if newMember.name = "" then
        let deleted := team.delMember newMember.guid true
        loadMembersLoop deleted.1 captainPresentInTeam (statements ++ deleted.2) result
      else
        loadMembersLoop { team with members := team.members ++ [newMember] }
          (newMember.guid = team.captainGuid || captainPresentInTeam) statements result

/-- `ArenaTeam::LoadMembersFromDB`, which returns the team if it is not empty and has its captain,
the statements and the cursor. -/
def loadMembersFromDB (team : ArenaTeam) (result : List ArenaTeamMemberRow) :
    Option ArenaTeam × List ArenaTeamStatement × List ArenaTeamMemberRow :=
  let loaded := loadMembersLoop team false [] result
  (if loaded.1.1.members = [] ∨ loaded.1.2 = false then none else some loaded.1.1, loaded.2)

/-- The statements of `ArenaTeam::Disband`. -/
def disbandStatements (teamId : ℕ) : List ArenaTeamStatement :=
  [.delArenaTeam teamId, .delArenaTeamMembers teamId]

end ArenaTeam

namespace ArenaTeamMgr

/-- `AddArenaTeam` -/
def addArenaTeam (mgr : ArenaTeamMgr) (arenaTeam : ArenaTeam) : ArenaTeamMgr :=
  { mgr with
    arenaTeamStore := update mgr.arenaTeamStore arenaTeam.teamId (some arenaTeam) }

/-- `RemoveArenaTeam` -/
def removeArenaTeam (mgr : ArenaTeamMgr) (arenaTeamId : ℕ) : ArenaTeamMgr :=
  { mgr with arenaTeamStore := update mgr.arenaTeamStore arenaTeamId none }

/-- `ArenaTeam::Disband`, for a team that is deleted then. -/
def disband (mgr : ArenaTeamMgr) (teamId : ℕ) : ArenaTeamMgr :=
  { mgr with statements := mgr.statements ++ ArenaTeam.disbandStatements teamId }.removeArenaTeam
    teamId

/-- The loop of `LoadArenaTeams`. -/
def loadLoop (mgr : ArenaTeamMgr) : List ArenaTeamRow → List ArenaTeamMemberRow → ArenaTeamMgr
  | [], _ => mgr
  | fields :: result, result2 =>
    let newArenaTeam := ArenaTeam.loadArenaTeamFromDB fields
    let loaded := newArenaTeam.loadMembersFromDB result2
    let mgr := { mgr with statements := mgr.statements ++ loaded.2.1 }
    match loaded.1 with
    | none => loadLoop (mgr.disband newArenaTeam.teamId) result loaded.2.2
    | some team => loadLoop (mgr.addArenaTeam team) result loaded.2.2

/-- `ArenaTeamMgr::LoadArenaTeams`, after the rows of missing teams were deleted. -/
def loadArenaTeams (result : List ArenaTeamRow) (result2 : List ArenaTeamMemberRow) :
    ArenaTeamMgr :=
  loadLoop {} result result2

end ArenaTeamMgr

/-! ## What is loaded -/

/-- The rows of a team that have a character. -/
def rowsOf (result2 : List ArenaTeamMemberRow) (teamId : ℕ) : List ArenaTeamMemberRow :=
  result2.filter fun row => row.arenaTeamId = teamId ∧ row.name ≠ ""

/-- The rows of a team whose characters are missing. -/
def missingRowsOf (result2 : List ArenaTeamMemberRow) (teamId : ℕ) : List ArenaTeamMemberRow :=
  result2.filter fun row => row.arenaTeamId = teamId ∧ row.name = ""

/-- The captain is among the rows of the team that have a character. -/
def HasCaptain (result2 : List ArenaTeamMemberRow) (fields : ArenaTeamRow) : Prop :=
  ∃ row ∈ rowsOf result2 fields.arenaTeamId, row.guid = fields.captainGuid

instance (result2 : List ArenaTeamMemberRow) (fields : ArenaTeamRow) :
    Decidable (HasCaptain result2 fields) :=
  inferInstanceAs (Decidable (∃ row ∈ rowsOf result2 fields.arenaTeamId, _))

/-- The team of a row with its members. -/
def loadedTeam (result2 : List ArenaTeamMemberRow) (fields : ArenaTeamRow) : ArenaTeam :=
  { ArenaTeam.loadArenaTeamFromDB fields with
    members := (rowsOf result2 fields.arenaTeamId).map ArenaTeam.newMember }

/-- The statements for a team : its rows without a character are deleted, and all of it if it has no
captain. -/
def statementsOf (result2 : List ArenaTeamMemberRow) (fields : ArenaTeamRow) :
    List ArenaTeamStatement :=
  (missingRowsOf result2 fields.arenaTeamId).map
      (fun row => .delArenaTeamMember fields.arenaTeamId row.guid) ++
    if HasCaptain result2 fields then [] else ArenaTeam.disbandStatements fields.arenaTeamId

/-! ## The rows of one team -/

section Members

variable {Missing : ℕ → Prop} {result2 : List ArenaTeamMemberRow}

/-- The loop takes the rows of the team and stops at those of later teams. -/
theorem loadMembersLoop_eq (hsorted : result2.Pairwise fun r r' => r.arenaTeamId ≤ r'.arenaTeamId)
    (hmissing : ∀ row ∈ result2, row.name = "" ↔ Missing row.guid) {team : ArenaTeam}
    (hle : ∀ row ∈ result2, team.teamId ≤ row.arenaTeamId)
    (hmembers : ∀ m ∈ team.members, ¬Missing m.guid) (captain : Bool)
    (statements : List ArenaTeamStatement) :
    team.loadMembersLoop captain statements result2 =
      (({ team with
            members := team.members ++ (rowsOf result2 team.teamId).map ArenaTeam.newMember },
          (rowsOf result2 team.teamId).any (fun row => row.guid = team.captainGuid) || captain),
        statements ++ (missingRowsOf result2 team.teamId).map
          (fun row => .delArenaTeamMember team.teamId row.guid),
        result2.filter fun row => team.teamId < row.arenaTeamId) := by
  induction result2 generalizing team captain statements with
  | nil => simp [ArenaTeam.loadMembersLoop, rowsOf, missingRowsOf]
  | cons row rows ih =>
    obtain ⟨hfirst, hrest⟩ := pairwise_cons.1 hsorted
    have hmissing' : ∀ row ∈ rows, row.name = "" ↔ Missing row.guid := fun row' hrow' =>
      hmissing row' (mem_cons_of_mem _ hrow')
    have hrow := hmissing row mem_cons_self
    rw [ArenaTeam.loadMembersLoop]
    by_cases hlater : team.teamId < row.arenaTeamId
    · -- all rows from here on are of later teams
      have hall : ∀ r ∈ row :: rows, team.teamId < r.arenaTeamId := by
        intro r hr
        rcases mem_cons.1 hr with rfl | hr
        · exact hlater
        · exact Nat.lt_of_lt_of_le hlater (hfirst r hr)
      have hnone : rowsOf (row :: rows) team.teamId = [] :=
        filter_eq_nil_iff.2 fun r hr => by simp [Nat.ne_of_gt (hall r hr)]
      have hnone' : missingRowsOf (row :: rows) team.teamId = [] :=
        filter_eq_nil_iff.2 fun r hr => by simp [Nat.ne_of_gt (hall r hr)]
      have hkeep : (row :: rows).filter (fun r => team.teamId < r.arenaTeamId) = row :: rows :=
        filter_eq_self.2 fun r hr => by simpa using hall r hr
      rw [if_pos hlater, hnone, hnone', hkeep]
      simp
    · have hid : row.arenaTeamId = team.teamId :=
        Nat.le_antisymm (Nat.le_of_not_lt hlater) (hle row mem_cons_self)
      have hle' : ∀ r ∈ rows, team.teamId ≤ r.arenaTeamId := fun r hr =>
        hle r (mem_cons_of_mem _ hr)
      have hdrop : (row :: rows).filter (fun r => team.teamId < r.arenaTeamId) =
          rows.filter fun r => team.teamId < r.arenaTeamId :=
        filter_cons_of_neg (by simpa using hlater)
      rw [if_neg hlater, hdrop]
      by_cases hname : row.name = ""
      · -- nobody with this guid is a member yet
        have hdel : team.delMember row.guid true =
            (team, [.delArenaTeamMember team.teamId row.guid]) := by
          have hstay : team.members.eraseP (fun m => m.guid = row.guid) = team.members := by
            refine eraseP_of_forall_not fun m hm => ?_
            have hne : m.guid ≠ row.guid := fun heq => hmembers m hm (heq ▸ hrow.1 hname)
            simpa using hne
          rw [ArenaTeam.delMember, hstay]
          rfl
        have hrows : rowsOf (row :: rows) team.teamId = rowsOf rows team.teamId :=
          filter_cons_of_neg (by simp [hname])
        have hmiss : missingRowsOf (row :: rows) team.teamId =
            row :: missingRowsOf rows team.teamId :=
          filter_cons_of_pos (by simp [hname, hid])
        have hname' : (ArenaTeam.newMember row).name = "" := hname
        have hguid : (ArenaTeam.newMember row).guid = row.guid := rfl
        rw [if_pos hname', hguid, hdel, ih hrest hmissing' hle' hmembers, hrows, hmiss]
        simp
      · have hrows : rowsOf (row :: rows) team.teamId = row :: rowsOf rows team.teamId :=
          filter_cons_of_pos (by simp [hname, hid])
        have hmiss : missingRowsOf (row :: rows) team.teamId = missingRowsOf rows team.teamId :=
          filter_cons_of_neg (by simp [hname])
        have hmembers' : ∀ m ∈ team.members ++ [ArenaTeam.newMember row], ¬Missing m.guid := by
          intro m hm
          rcases mem_append.1 hm with hm | hm
          · exact hmembers m hm
          · rw [mem_singleton.1 hm]
            exact fun h => hname (hrow.2 h)
        have hstep := @ih hrest hmissing'
          { team with
            members := team.members ++ [ArenaTeam.newMember row] } hle' hmembers'
          ((ArenaTeam.newMember row).guid = team.captainGuid || captain) statements
        have hname' : ¬(ArenaTeam.newMember row).name = "" := hname
        rw [if_neg hname', hstep, hrows, hmiss]
        simp only [map_cons, append_assoc, singleton_append, any_cons,
          Prod.mk.injEq, and_true, true_and]
        rw [← Bool.or_assoc, Bool.or_comm (List.any _ _)]
        rfl

/-- The members of one team are loaded from its rows. -/
theorem loadMembersFromDB_eq (hsorted : result2.Pairwise fun r r' => r.arenaTeamId ≤ r'.arenaTeamId)
    (hmissing : ∀ row ∈ result2, row.name = "" ↔ Missing row.guid) (fields : ArenaTeamRow)
    (hle : ∀ row ∈ result2, fields.arenaTeamId ≤ row.arenaTeamId) :
    (ArenaTeam.loadArenaTeamFromDB fields).loadMembersFromDB result2 =
      (if HasCaptain result2 fields then some (loadedTeam result2 fields) else none,
        (missingRowsOf result2 fields.arenaTeamId).map
          (fun row => .delArenaTeamMember fields.arenaTeamId row.guid),
        result2.filter fun row => fields.arenaTeamId < row.arenaTeamId) := by
  have hloop := @loadMembersLoop_eq Missing result2 hsorted hmissing
    (.loadArenaTeamFromDB fields) hle (by simp [ArenaTeam.loadArenaTeamFromDB]) false []
  have hcaptain : ((rowsOf result2 fields.arenaTeamId).any
      fun row => row.guid = fields.captainGuid) = decide (HasCaptain result2 fields) := by
    rw [Bool.eq_iff_iff, any_eq_true, decide_eq_true_iff]
    simp [HasCaptain]
  have hbase : ArenaTeam.loadMembersLoop (.loadArenaTeamFromDB fields) false [] result2 =
      ((loadedTeam result2 fields, decide (HasCaptain result2 fields)),
        (missingRowsOf result2 fields.arenaTeamId).map
          (fun row => .delArenaTeamMember fields.arenaTeamId row.guid),
        result2.filter fun row => fields.arenaTeamId < row.arenaTeamId) := by
    rw [hloop, ← hcaptain, Bool.or_false]
    rfl
  rw [ArenaTeam.loadMembersFromDB, hbase]
  by_cases hcap : HasCaptain result2 fields
  · -- the captain is a member, so that the team is not empty
    have hne : (loadedTeam result2 fields).members ≠ [] := by
      obtain ⟨row, hrow, -⟩ := id hcap
      exact ne_nil_of_mem (mem_map_of_mem hrow)
    simp [hcap, hne]
  · simp [hcap]

end Members

/-! ## The teams one after another -/

variable {fields : ArenaTeamRow} {teamId : ℕ}

section Teams

variable {Missing : ℕ → Prop} {result : List ArenaTeamRow} {result2 : List ArenaTeamMemberRow}

theorem rowsOf_later {teamId' : ℕ} (hlt : teamId < teamId') :
    rowsOf (result2.filter fun row => teamId < row.arenaTeamId) teamId' =
      rowsOf result2 teamId' := by
  rw [rowsOf, rowsOf, filter_filter]
  refine filter_congr fun row _ => ?_
  by_cases hid : row.arenaTeamId = teamId' <;> simp [hid, hlt]

theorem missingRowsOf_later {teamId' : ℕ} (hlt : teamId < teamId') :
    missingRowsOf (result2.filter fun row => teamId < row.arenaTeamId) teamId' =
      missingRowsOf result2 teamId' := by
  rw [missingRowsOf, missingRowsOf, filter_filter]
  refine filter_congr fun row _ => ?_
  by_cases hid : row.arenaTeamId = teamId' <;> simp [hid, hlt]

section

variable (hlt : teamId < fields.arenaTeamId)
include hlt

theorem hasCaptain_later :
    HasCaptain (result2.filter fun row => teamId < row.arenaTeamId) fields ↔
      HasCaptain result2 fields := by
  rw [HasCaptain, HasCaptain, rowsOf_later hlt]

theorem loadedTeam_later :
    loadedTeam (result2.filter fun row => teamId < row.arenaTeamId) fields =
      loadedTeam result2 fields := by
  rw [loadedTeam, loadedTeam, rowsOf_later hlt]

theorem statementsOf_later :
    statementsOf (result2.filter fun row => teamId < row.arenaTeamId) fields =
      statementsOf result2 fields := by
  rw [statementsOf, statementsOf, missingRowsOf_later hlt]
  simp only [hasCaptain_later hlt]

end

namespace ArenaTeamMgr

/-- What one team does to the manager. -/
def loadTeam (mgr : ArenaTeamMgr) (result2 : List ArenaTeamMemberRow) (fields : ArenaTeamRow) :
    ArenaTeamMgr where
  arenaTeamStore := update mgr.arenaTeamStore fields.arenaTeamId
    (if HasCaptain result2 fields then some (loadedTeam result2 fields) else none)
  statements := mgr.statements ++ statementsOf result2 fields

/-- One step of the loop, with the rows from the team on. -/
theorem loadLoop_cons (hsorted : result2.Pairwise fun r r' => r.arenaTeamId ≤ r'.arenaTeamId)
    (hmissing : ∀ row ∈ result2, row.name = "" ↔ Missing row.guid) (mgr : ArenaTeamMgr)
    (fields : ArenaTeamRow) (hle : ∀ row ∈ result2, fields.arenaTeamId ≤ row.arenaTeamId) :
    mgr.loadLoop (fields :: result) result2 =
      (mgr.loadTeam result2 fields).loadLoop result
        (result2.filter fun row => fields.arenaTeamId < row.arenaTeamId) := by
  rw [loadLoop]
  simp only [loadMembersFromDB_eq hsorted hmissing fields hle]
  by_cases hcap : HasCaptain result2 fields
  · simp only [if_pos hcap]
    congr 1
    simp [loadTeam, addArenaTeam, statementsOf, hcap, loadedTeam, ArenaTeam.loadArenaTeamFromDB]
  · simp only [if_neg hcap]
    congr 1
    simp [loadTeam, disband, removeArenaTeam, statementsOf, hcap, ArenaTeam.loadArenaTeamFromDB]

/-- The loop loads every team from its own rows. -/
theorem loadLoop_eq (hteams : result.Pairwise fun t t' => t.arenaTeamId < t'.arenaTeamId)
    (hsorted : result2.Pairwise fun r r' => r.arenaTeamId ≤ r'.arenaTeamId)
    (hnamed : ∀ row ∈ result2, ∃ fields ∈ result, fields.arenaTeamId = row.arenaTeamId)
    (hmissing : ∀ row ∈ result2, row.name = "" ↔ Missing row.guid) (mgr : ArenaTeamMgr) :
    mgr.loadLoop result result2 =
      result.foldl (fun mgr fields => mgr.loadTeam result2 fields) mgr := by
  induction result generalizing mgr result2 with
  | nil => rfl
  | cons fields teams ih =>
    obtain ⟨hfirst, hrest⟩ := pairwise_cons.1 hteams
    have hle : ∀ row ∈ result2, fields.arenaTeamId ≤ row.arenaTeamId := by
      intro row hrow
      obtain ⟨team, hteam, hid⟩ := hnamed row hrow
      rcases mem_cons.1 hteam with rfl | hteam
      · exact Nat.le_of_eq hid
      · exact hid ▸ Nat.le_of_lt (hfirst team hteam)
    have hnamed' : ∀ row ∈ result2.filter fun row => fields.arenaTeamId < row.arenaTeamId,
        ∃ team ∈ teams, team.arenaTeamId = row.arenaTeamId := by
      intro row hrow
      obtain ⟨hrow, hlater⟩ := mem_filter.1 hrow
      obtain ⟨team, hteam, hid⟩ := hnamed row hrow
      rcases mem_cons.1 hteam with rfl | hteam
      · exact absurd (of_decide_eq_true hlater) (by omega)
      · exact ⟨team, hteam, hid⟩
    rw [loadLoop_cons hsorted hmissing mgr fields hle, foldl_cons,
      ih hrest (hsorted.filter _) hnamed' fun row hrow =>
        hmissing row (mem_of_mem_filter hrow)]
    refine foldl_ext _ _ _ fun mgr team hteam => ?_
    have hlt := hfirst team hteam
    simp only [loadTeam, statementsOf_later hlt, loadedTeam_later hlt, hasCaptain_later hlt]

theorem foldl_loadTeam_statements (mgr : ArenaTeamMgr) :
    (result.foldl (fun mgr fields => mgr.loadTeam result2 fields) mgr).statements =
      mgr.statements ++ result.flatMap (statementsOf result2) := by
  induction result generalizing mgr with
  | nil => simp
  | cons fields teams ih => rw [foldl_cons, ih]; simp [loadTeam]

/-- Other ids keep their team. -/
theorem foldl_loadTeam_store_other (mgr : ArenaTeamMgr)
    (hother : ∀ fields ∈ result, fields.arenaTeamId ≠ teamId) :
    (result.foldl (fun mgr fields => mgr.loadTeam result2 fields) mgr).arenaTeamStore teamId =
      mgr.arenaTeamStore teamId := by
  induction result generalizing mgr with
  | nil => rfl
  | cons fields teams ih =>
    rw [foldl_cons, ih _ fun team hteam => hother team (mem_cons_of_mem _ hteam)]
    exact update_of_ne (hother fields mem_cons_self).symm _ _

/-- The store holds the teams with a captain. -/
theorem foldl_loadTeam_store (hteams : result.Pairwise fun t t' => t.arenaTeamId < t'.arenaTeamId)
    (mgr : ArenaTeamMgr) (hfields : fields ∈ result) :
    (result.foldl (fun mgr fields => mgr.loadTeam result2 fields) mgr).arenaTeamStore
        fields.arenaTeamId =
      if HasCaptain result2 fields then some (loadedTeam result2 fields) else none := by
  induction result generalizing mgr with
  | nil => cases hfields
  | cons team teams ih =>
    obtain ⟨hfirst, hrest⟩ := pairwise_cons.1 hteams
    rw [foldl_cons]
    rcases mem_cons.1 hfields with rfl | hfields
    · rw [foldl_loadTeam_store_other _ fun t ht => Nat.ne_of_gt (hfirst t ht)]
      exact update_self _ _ _
    · exact ih hrest _ hfields

end ArenaTeamMgr

end Teams

/-! ## The whole loading -/

section Statements

variable {result2 : List ArenaTeamMemberRow}

theorem delArenaTeamMember_mem_statementsOf {guid : ℕ} :
    .delArenaTeamMember teamId guid ∈ statementsOf result2 fields ↔
      fields.arenaTeamId = teamId ∧
        ∃ row ∈ result2, row.arenaTeamId = teamId ∧ row.guid = guid ∧ row.name = "" := by
  have hdisband : .delArenaTeamMember teamId guid ∉
      (if HasCaptain result2 fields then [] else
        ArenaTeam.disbandStatements fields.arenaTeamId : List ArenaTeamStatement) := by
    split <;> simp [ArenaTeam.disbandStatements]
  simp only [statementsOf, mem_append, hdisband, or_false, mem_map, missingRowsOf,
    mem_filter, decide_eq_true_iff, ArenaTeamStatement.delArenaTeamMember.injEq]
  constructor
  · rintro ⟨row, ⟨hrow, hid, hname⟩, hteam, hguid⟩
    exact ⟨hteam, row, hrow, hid.trans hteam, hguid, hname⟩
  · rintro ⟨hteam, row, hrow, hid, hguid, hname⟩
    exact ⟨row, ⟨hrow, hid.trans hteam.symm, hname⟩, hteam, hguid⟩

theorem delArenaTeamMembers_mem_statementsOf :
    .delArenaTeamMembers teamId ∈ statementsOf result2 fields ↔
      fields.arenaTeamId = teamId ∧ ¬HasCaptain result2 fields := by
  by_cases hcap : HasCaptain result2 fields
  · simp [statementsOf, hcap]
  · simp [statementsOf, hcap, ArenaTeam.disbandStatements, eq_comm]

theorem delArenaTeam_mem_statementsOf :
    .delArenaTeam teamId ∈ statementsOf result2 fields ↔
      fields.arenaTeamId = teamId ∧ ¬HasCaptain result2 fields := by
  by_cases hcap : HasCaptain result2 fields
  · simp [statementsOf, hcap]
  · simp [statementsOf, hcap, ArenaTeam.disbandStatements, eq_comm]

end Statements

/-- With the teams strictly sorted and the rows of the members sorted, each of a team, a team is
registered just when its captain is among its rows with a character. Its members are those rows in
order, and nothing else is registered. A row is deleted just when its character is missing, or with
its own team when that has no captain. -/
theorem loadArenaTeams_spec {Missing : ℕ → Prop} {result : List ArenaTeamRow}
    {result2 : List ArenaTeamMemberRow}
    (hteams : result.Pairwise fun t t' => t.arenaTeamId < t'.arenaTeamId)
    (hsorted : result2.Pairwise fun r r' => r.arenaTeamId ≤ r'.arenaTeamId)
    (hnamed : ∀ row ∈ result2, ∃ fields ∈ result, fields.arenaTeamId = row.arenaTeamId)
    (hmissing : ∀ row ∈ result2, row.name = "" ↔ Missing row.guid) :
    let mgr := ArenaTeamMgr.loadArenaTeams result result2
    (∀ fields ∈ result,
      (mgr.arenaTeamStore fields.arenaTeamId).isSome ↔ HasCaptain result2 fields) ∧
    (∀ teamId team, mgr.arenaTeamStore teamId = some team →
      ∃ fields ∈ result, fields.arenaTeamId = teamId ∧ team.teamId = teamId ∧
        team.captainGuid = fields.captainGuid ∧
        team.members = (result2.filter fun row => row.arenaTeamId = teamId ∧ row.name ≠ "").map
          ArenaTeam.newMember) ∧
    (∀ teamId guid, .delArenaTeamMember teamId guid ∈ mgr.statements ↔
      ∃ row ∈ result2, row.arenaTeamId = teamId ∧ row.guid = guid ∧ row.name = "") ∧
    (∀ teamId, .delArenaTeamMembers teamId ∈ mgr.statements ↔
      ∃ fields ∈ result, fields.arenaTeamId = teamId ∧ ¬HasCaptain result2 fields) ∧
    ∀ teamId, .delArenaTeam teamId ∈ mgr.statements ↔
      ∃ fields ∈ result, fields.arenaTeamId = teamId ∧ ¬HasCaptain result2 fields := by
  have hload := ArenaTeamMgr.loadLoop_eq hteams hsorted hnamed hmissing {}
  have hstatements : (ArenaTeamMgr.loadArenaTeams result result2).statements =
      result.flatMap (statementsOf result2) := by
    rw [ArenaTeamMgr.loadArenaTeams, hload, ArenaTeamMgr.foldl_loadTeam_statements]
    rfl
  have hstore : ∀ fields ∈ result,
      (ArenaTeamMgr.loadArenaTeams result result2).arenaTeamStore fields.arenaTeamId =
        if HasCaptain result2 fields then some (loadedTeam result2 fields) else none := by
    intro fields hfields
    rw [ArenaTeamMgr.loadArenaTeams, hload, ArenaTeamMgr.foldl_loadTeam_store hteams {} hfields]
  refine ⟨fun fields hfields => ?_, fun teamId team hteam => ?_, fun teamId guid => ?_,
    fun teamId => ?_, fun teamId => ?_⟩
  · rw [hstore fields hfields]
    split <;> simp [*]
  · have hfields : ∃ fields ∈ result, fields.arenaTeamId = teamId := by
      by_contra hnone
      have hother : ∀ fields ∈ result, fields.arenaTeamId ≠ teamId := fun fields hfields hid =>
        hnone ⟨fields, hfields, hid⟩
      rw [ArenaTeamMgr.loadArenaTeams, hload, ArenaTeamMgr.foldl_loadTeam_store_other _ hother]
        at hteam
      cases hteam
    obtain ⟨fields, hfields, rfl⟩ := hfields
    rw [hstore fields hfields] at hteam
    split at hteam
    · obtain rfl := Option.some.inj hteam
      exact ⟨fields, hfields, rfl, rfl, rfl, rfl⟩
    · cases hteam
  · rw [hstatements, mem_flatMap]
    simp only [delArenaTeamMember_mem_statementsOf]
    constructor
    · rintro ⟨fields, -, -, hrow⟩
      exact hrow
    · rintro ⟨row, hrow, hid, hguid, hname⟩
      obtain ⟨fields, hfields, hteam⟩ := hnamed row hrow
      exact ⟨fields, hfields, hteam.trans hid, row, hrow, hid, hguid, hname⟩
  · rw [hstatements, mem_flatMap]
    simp only [delArenaTeamMembers_mem_statementsOf]
  · rw [hstatements, mem_flatMap]
    simp only [delArenaTeam_mem_statementsOf]

/-- Three teams, of which the second has no rows and the first one row of a missing character. -/
def threeTeams : List ArenaTeamRow :=
  [{ arenaTeamId := 1, name := "First", captainGuid := 10 },
    { arenaTeamId := 2, name := "Second", captainGuid := 20 },
    { arenaTeamId := 3, name := "Third", captainGuid := 30 }]

/-- The rows of their members. -/
def threeTeamsMembers : List ArenaTeamMemberRow :=
  [{ arenaTeamId := 1, guid := 11, name := "" }, { arenaTeamId := 1, guid := 10, name := "Anna" },
    { arenaTeamId := 3, guid := 31, name := "Bert" },
    { arenaTeamId := 3, guid := 30, name := "Carl" }]

/-- The second team is disbanded, and the third has both of its members. -/
theorem loadArenaTeams_spec_three :
    let mgr := ArenaTeamMgr.loadArenaTeams threeTeams threeTeamsMembers
    (mgr.arenaTeamStore 1).isSome ∧ ¬(mgr.arenaTeamStore 2).isSome ∧
      (mgr.arenaTeamStore 3).isSome ∧ .delArenaTeamMember 1 11 ∈ mgr.statements ∧
      .delArenaTeamMembers 2 ∈ mgr.statements ∧ .delArenaTeamMembers 3 ∉ mgr.statements := by
  obtain ⟨hstore, -, hmember, hmembers, -⟩ := @loadArenaTeams_spec (fun guid => guid = 11)
    threeTeams threeTeamsMembers (by decide) (by decide) (by decide) (by decide)
  refine ⟨(hstore _ (by decide : threeTeams[0] ∈ threeTeams)).2 (by decide),
    mt (hstore _ (by decide : threeTeams[1] ∈ threeTeams)).1 (by decide),
    (hstore _ (by decide : threeTeams[2] ∈ threeTeams)).2 (by decide),
    (hmember 1 11).2 (by decide), (hmembers 2).2 (by decide), mt (hmembers 3).1 (by decide)⟩

end MistyWorld
