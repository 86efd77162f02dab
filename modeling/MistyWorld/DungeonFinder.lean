import MistyWorld.Keyed
import MistyWorld.Run

/-!
# The proposals of the dungeon finder

`LFGMgr` has a state for every player and group that uses the dungeon finder, and the pending
proposals, each with its players. `Update` removes what is obsolete, lets the queues find new
groups, which makes proposals, and sets the state of those in the new proposals. The loop over the
new proposals starts from the last id, so of several only the last one is seen.

A write of another function sets a state, a group or a leader. The search of the queues is given by
the proposals it leads to, and `MakeNewGroup` by what it writes. Queues, roles, dungeons and
packets are left out.
-/

open Machine

namespace MistyWorld

/-- `LfgState` -/
inductive LfgState
  | none
  | roleCheck
  | queued
  | proposal
  | boot
  | dungeon
  | finishedDungeon
  | raidBrowser
deriving DecidableEq

/-- The guid of a player or, with `IS_GROUP_GUID`, of a group. -/
inductive LfgGuid
  | player (guid : ℕ)
  | group (guid : ℕ)
deriving DecidableEq

/-- The states in `LfgPlayerData` and `LfgGroupData`. -/
structure LfgData where
  state : LfgState := .none
  oldState : LfgState := .none

/-- `SetState` -/
def LfgData.setState (data : LfgData) (state : LfgState) : LfgData :=
  match state with
  | .none | .finishedDungeon | .dungeon => ⟨state, state⟩
  | _ => { data with state }

/-- `RestoreState` -/
def LfgData.restoreState (data : LfgData) : LfgData :=
  { data with state := data.oldState }

/-- `LfgAnswer` -/
inductive LfgAnswer
  | pending
  | deny
  | agree
deriving DecidableEq

/-- `LfgProposalState` -/
inductive LfgProposalState
  | initiating
  | failed
  | success
deriving DecidableEq

/-- The reasons to remove a proposal, of `LfgUpdateType`. -/
inductive LfgRemoval
  | failed
  | declined
deriving DecidableEq

/-- `LfgProposalPlayer`, with its key. The group is that with which the player is queued. -/
structure LfgProposalPlayer where
  guid : ℕ
  accept : LfgAnswer := .pending
  group : Option ℕ := none
deriving DecidableEq

/-- What a player is queued as. -/
def LfgProposalPlayer.queueGuid (p : LfgProposalPlayer) : LfgGuid :=
  match p.group with
  | some group => .group group
  | none => .player p.guid

/-- `LfgProposal` -/
structure LfgProposal where
  id : ℕ := 0
  state : LfgProposalState := .initiating
  cancelTime : ℕ
  queues : List LfgGuid
  players : List LfgProposalPlayer
deriving DecidableEq

namespace LfgProposal

/-- The guids of a proposal : its players and the groups with which they are queued. -/
def guids (proposal : LfgProposal) : List LfgGuid :=
  proposal.players.flatMap fun p => .player p.guid :: (p.group.map LfgGuid.group).toList

/-- The answer of a player. -/
def answer (proposal : LfgProposal) (guid : ℕ) (accept : LfgAnswer) : LfgProposal :=
  { proposal with players := proposal.players.map fun p =>
      if p.guid = guid then { p with accept } else p }

/-- Those who did not answer deny, when the proposal failed. -/
def close (proposal : LfgProposal) (type : LfgRemoval) : LfgProposal :=
  { proposal with players := proposal.players.map fun p =>
      if type = .failed ∧ p.accept = .pending then { p with accept := .deny } else p }

/-- `toRemove` -/
def toRemove (proposal : LfgProposal) (type : LfgRemoval) : List LfgGuid :=
  (proposal.players.filter fun p =>
    p.accept ≠ .agree && (p.accept = .deny || type = .failed)).map LfgProposalPlayer.queueGuid

end LfgProposal

/-- `LFGMgr`. `proposals` is `ProposalsStore`, in the order of the ids. -/
structure LfgMgr where
  data : LfgGuid → LfgData := fun _ => {}
  group : ℕ → Option ℕ := fun _ => none
  leader : ℕ → ℕ := fun _ => 0
  proposals : List LfgProposal := []
  lfgProposalId : ℕ := 1

/-- What other functions write. -/
inductive LfgWrite
  | setState (guid : LfgGuid) (state : LfgState)
  | restoreState (guid : LfgGuid)
  | setGroup (player : ℕ) (group : Option ℕ)
  | setLeader (group leader : ℕ)

namespace LfgMgr

/-- `GetState` -/
def getState (s : LfgMgr) (guid : LfgGuid) : LfgState :=
  (s.data guid).state

/-- `SetState` -/
def setState (s : LfgMgr) (guid : LfgGuid) (state : LfgState) : LfgMgr :=
  { s with data := Function.update s.data guid ((s.data guid).setState state) }

/-- `RestoreState` -/
def restoreState (s : LfgMgr) (guid : LfgGuid) : LfgMgr :=
  { s with data := Function.update s.data guid (s.data guid).restoreState }

/-- A write of another function. -/
def write (s : LfgMgr) : LfgWrite → LfgMgr
  | .setState guid state => s.setState guid state
  | .restoreState guid => s.restoreState guid
  | .setGroup player group => { s with group := Function.update s.group player group }
  | .setLeader group leader => { s with leader := Function.update s.leader group leader }

/-! ## Proposals -/

/-- `AllQueued` -/
def allQueued (s : LfgMgr) (check : List LfgGuid) : Bool :=
  !check.isEmpty && check.all fun guid => s.getState guid = .queued

/-- `AddProposal` -/
def addProposal (s : LfgMgr) (proposal : LfgProposal) : LfgMgr :=
  { s with
    lfgProposalId := s.lfgProposalId + 1
    proposals := s.proposals ++ [{ proposal with id := s.lfgProposalId + 1 }] }

/-- A player of a removed proposal : he and his group get their old state back, or are queued
again. -/
def settle (toRemove : List LfgGuid) (s : LfgMgr) (p : LfgProposalPlayer) : LfgMgr :=
  if p.queueGuid ∈ toRemove then
    let s := s.restoreState (.player p.guid)
    match p.group with
    | some group => s.restoreState (.group group)
    | none => s
  else
    let s := s.setState (.player p.guid) .queued
    match p.group with
    | some group => s.setState (.group group) .queued
    | none => s

/-- `RemoveProposal` -/
def removeProposal (s : LfgMgr) (proposal : LfgProposal) (type : LfgRemoval) : LfgMgr :=
  let closed := proposal.close type
  let s := closed.players.foldl (settle (closed.toRemove type)) s
  { s with proposals := Keyed.remove LfgProposal.id s.proposals proposal.id }

/-- An answer in `ProposalsStore`. -/
def answer (s : LfgMgr) (proposalId guid : ℕ) (accept : LfgAnswer) : LfgMgr :=
  { s with proposals := s.proposals.map fun proposal =>
      if proposal.id = proposalId then proposal.answer guid accept else proposal }

/-- `UpdateProposal`, with what `MakeNewGroup` writes. -/
def updateProposal (s : LfgMgr) (proposalId guid : ℕ) (accept : Bool)
    (madeGroup : List LfgWrite) : LfgMgr :=
  match Keyed.find LfgProposal.id s.proposals proposalId with
  | none => s
  | some proposal =>
    if guid ∉ proposal.players.map LfgProposalPlayer.guid then s
    else
      let s := s.answer proposalId guid (if accept then .agree else .deny)
      let proposal := proposal.answer guid (if accept then .agree else .deny)
      if !accept then s.removeProposal proposal .declined
      else if proposal.players.all fun p => p.accept = .agree then
        let s := proposal.players.foldl (fun s p => s.setState (.player p.guid) .dungeon) s
        let s := madeGroup.foldl write s
        { s with proposals := Keyed.remove LfgProposal.id s.proposals proposalId }
      else s

/-- The player who leaves, the leader for a group. -/
def leaver (s : LfgMgr) : LfgGuid → ℕ
  | .player player => player
  | .group group => s.leader group

/-- `LeaveLfg` of one who is in proposal state. In other states it writes no more than other
functions. -/
def leaveLfg (s : LfgMgr) (guid : LfgGuid) : LfgMgr :=
  if s.getState guid = .proposal then
    match s.proposals.find? fun proposal =>
      proposal.players.any fun p => p.guid = s.leaver guid with
    | none => s
    | some proposal => s.removeProposal (proposal.answer (s.leaver guid) .deny) .declined
  else s

/-! ## The update -/

/-- The end of `CheckCompatibility` : a proposal is made when all are queued. -/
def findMatch (s : LfgMgr) (proposal : LfgProposal) : LfgMgr :=
  if s.allQueued proposal.queues then s.addProposal { proposal with state := .initiating } else s

/-- A player of a new proposal, and his group, are in proposal state. -/
def beginPlayer (s : LfgMgr) (p : LfgProposalPlayer) : LfgMgr :=
  let s := s.setState (.player p.guid) .proposal
  match s.group p.guid with
  | some group => s.setState (.group group) .proposal
  | none => s

/-- A round of the loop over the new proposals. -/
def beginProposal (madeGroup : List LfgWrite) (s : LfgMgr) (proposal : LfgProposal) : LfgMgr :=
  let s := proposal.players.foldl beginPlayer s
  if proposal.state = .success then
    match proposal.players.getLast? with
    | some p => s.updateProposal proposal.id p.guid true madeGroup
    | none => s
  else s

end LfgMgr

/-- What a tick of `Update` finds : the time, the guids of obsolete role checks and boots, the
matches of the queues, and what `MakeNewGroup` would write. -/
structure LfgTick where
  enabled : Bool := true
  currTime : ℕ
  roleChecks : List LfgGuid := []
  boots : List LfgGuid := []
  found : List LfgProposal := []
  madeGroup : List LfgWrite := []

namespace LfgMgr

/-- What is obsolete is removed. -/
def expire (s : LfgMgr) (tick : LfgTick) : LfgMgr :=
  let s := tick.roleChecks.foldl restoreState s
  let s := (s.proposals.filter fun proposal => proposal.cancelTime < tick.currTime).foldl
    (fun s proposal => s.removeProposal proposal .failed) s
  tick.boots.foldl (fun s guid => s.setState guid .dungeon) s

/-- The queues look for groups, and the new proposals begin, from the last id on. -/
def search (s : LfgMgr) (tick : LfgTick) : LfgMgr :=
  let lastProposalId := s.lfgProposalId
  let s := tick.found.foldl findMatch s
  if s.lfgProposalId ≠ lastProposalId then
    (s.proposals.dropWhile fun proposal => proposal.id ≠ s.lfgProposalId).foldl
      (beginProposal tick.madeGroup) s
  else s

/-- `Update` -/
def update (s : LfgMgr) (tick : LfgTick) : LfgMgr :=
  if tick.enabled then (s.expire tick).search tick else s

end LfgMgr

/-- A call of the dungeon finder. -/
inductive LfgCall
  | write (w : LfgWrite)
  | updateProposal (proposalId guid : ℕ) (accept : Bool) (madeGroup : List LfgWrite)
  | leaveLfg (guid : LfgGuid)
  | update (tick : LfgTick)

namespace LfgMgr

/-- A call is served. -/
def serve (s : LfgMgr) : LfgCall → LfgMgr
  | .write w => s.write w
  | .updateProposal proposalId guid accept madeGroup =>
    s.updateProposal proposalId guid accept madeGroup
  | .leaveLfg guid => s.leaveLfg guid
  | .update tick => s.update tick

/-- The players of all proposals are in proposal state, and so are their groups. -/
def InProposal (s : LfgMgr) : Prop :=
  ∀ proposal ∈ s.proposals, ∀ p ∈ proposal.players,
    s.getState (.player p.guid) = .proposal ∧
      ∀ group, s.group p.guid = some group → s.getState (.group group) = .proposal

/-- A guid is in no proposal. -/
def Free (s : LfgMgr) (guid : LfgGuid) : Prop :=
  ∀ proposal ∈ s.proposals, guid ∉ proposal.guids

/-- A match has players without a group, or with the group they are queued with. -/
def WellFormed (s : LfgMgr) (proposal : LfgProposal) : Prop :=
  ∀ p ∈ proposal.players, s.group p.guid = p.group ∧ p.queueGuid ∈ proposal.queues

/-- The matches for which a proposal is made. -/
def matched (s : LfgMgr) (found : List LfgProposal) : List LfgProposal :=
  found.filter fun proposal => s.allQueued proposal.queues

end LfgMgr

/-- The guid that is written. -/
def LfgWrite.guid : LfgWrite → Option LfgGuid
  | setState guid _ | restoreState guid => some guid
  | setGroup player _ => some (.player player)
  | setLeader _ _ => none

namespace LfgMgr

/-- When a tick makes one proposal at most, and nobody in a proposal is written by other
functions. -/
def Meets (s : LfgMgr) : LfgCall → Prop
  | .write w => ∀ guid, w.guid = some guid → s.Free guid
  | .updateProposal proposalId _ _ madeGroup => ∀ w ∈ madeGroup, ∀ guid, w.guid = some guid →
    ∀ proposal ∈ s.proposals, proposal.id ≠ proposalId → guid ∉ proposal.guids
  | .leaveLfg _ => True
  | .update tick => (∀ guid ∈ tick.roleChecks ++ tick.boots, s.Free guid) ∧
    (∀ proposal ∈ tick.found, s.WellFormed proposal) ∧
    ((s.expire tick).matched tick.found).length ≤ 1

end LfgMgr

end MistyWorld
