import MistyWorld.DungeonFinder
import MistyWorld.LfgWaiting

/-!
# Where a guid waits

A guid with queue data is new, in the queue, or in a pending proposal. When a proposal is removed,
those who agreed are new again and the others leave. When all agree, all leave.

`LfgFinder` has one queue, with the pending proposals of `ProposalsStore`. The states of the players
are in the `LfgView` of a search. Each guid with queue data is in exactly one place in a run whose
searches report no match from what is stored, as long as nobody joins who is queued or in a pending
proposal (`placed_run`). A player who joins again while his proposal is pending is in two places.
-/

open Keyed List Machine

namespace MistyWorld

/-- A pending `LfgProposal`, with the guids of the queue. -/
structure LfgPending where
  id : ℕ
  queues : List ℕ
  players : List LfgProposalPlayer

namespace LfgPending

/-- The answer of a player. -/
def answer (p : LfgPending) (guid : ℕ) (accept : LfgAnswer) : LfgPending :=
  { p with players := p.players.map fun player =>
      if player.guid = guid then { player with accept } else player }

/-- Those who did not answer deny, when the proposal failed. -/
def close (p : LfgPending) (type : LfgRemoval) : LfgPending :=
  { p with players := p.players.map fun player =>
      if type = .failed ∧ player.accept = .pending then { player with accept := .deny }
      else player }

/-- `toRemove` -/
def toRemove (p : LfgPending) (type : LfgRemoval) : List ℕ :=
  guidSet ((p.players.filter fun player =>
    player.accept ≠ .agree && (player.accept = .deny || type = .failed)).map fun player =>
      player.group.getD player.guid)

end LfgPending

/-- A queue with the pending proposals. `pending` is `ProposalsStore`, in the order of the ids. -/
structure LfgFinder where
  queue : LfgQueue := {}
  pending : List LfgPending := []
  lfgProposalId : ℕ := 1

namespace LfgFinder

/-- `AddProposal` -/
def addProposal (s : LfgFinder) (m : LfgMatch) : LfgFinder :=
  { s with
    lfgProposalId := s.lfgProposalId + 1
    pending := s.pending ++ [{
      id := s.lfgProposalId + 1
      queues := m.queues
      players := m.players.map fun p =>
        { guid := p.guid
          accept := if p.accepted then .agree else .pending
          group := if p.group = 0 then none else some p.group } }] }

/-- `FindGroups`, with the proposals it makes. -/
def findGroups (s : LfgFinder) (env : LfgView) : LfgFinder :=
  match s.queue.findGroups env s.queue.newToQueue.length 0 with
  | none => s
  | some (_, queue) =>
    queue.proposals.foldl addProposal { s with queue := { queue with proposals := [] } }

/-- A proposal that is gone. -/
def erase (s : LfgFinder) (id : ℕ) : LfgFinder :=
  { s with pending := remove LfgPending.id s.pending id }

/-- `RemoveProposal` -/
def removeProposal (s : LfgFinder) (p : LfgPending) (type : LfgRemoval) : LfgFinder :=
  let toRemove := (p.close type).toRemove type
  let queue := toRemove.foldl LfgQueue.removeFromQueue s.queue
  let queues := p.queues.filter (· ∉ toRemove)
  { s with queue := queues.foldl LfgQueue.addToQueue queue }.erase p.id

/-- `UpdateProposal` -/
def updateProposal (s : LfgFinder) (id guid : ℕ) (accept : Bool) : LfgFinder :=
  match Keyed.find LfgPending.id s.pending id with
  | none => s
  | some p =>
    if guid ∉ p.players.map LfgProposalPlayer.guid then s
    else
      let p := p.answer guid (if accept then .agree else .deny)
      let s := { s with pending := Keyed.replace LfgPending.id s.pending p }
      if !accept then s.removeProposal p .declined
      else if p.players.all fun player => player.accept = .agree then
        { s with queue := p.queues.foldl LfgQueue.removeFromQueue s.queue }.erase id
      else s

/-- `LeaveLfg` of a player in proposal state, or of the group that he leads. -/
def leaveLfg (s : LfgFinder) (guid : ℕ) : LfgFinder :=
  match s.pending.find? fun p => guid ∈ p.players.map LfgProposalPlayer.guid with
  | none => s
  | some p => s.removeProposal (p.answer guid .deny) .declined

/-- An obsolete proposal is removed. -/
def timeOut (s : LfgFinder) (id : ℕ) : LfgFinder :=
  match Keyed.find LfgPending.id s.pending id with
  | none => s
  | some p => s.removeProposal p .failed

/-- What is asked of the dungeon finder. -/
inductive Request
  | addQueueData (guid : ℕ) (dungeons : Finset ℕ) (roles : LfgRolesMap)
  | removeFromQueue (guid : ℕ)
  | findGroups (env : LfgView)
  | updateProposal (id guid : ℕ) (accept : Bool)
  | leaveLfg (guid : ℕ)
  | timeOut (id : ℕ)

/-- A request is served. -/
def serve (s : LfgFinder) : Request → LfgFinder
  | .addQueueData guid dungeons roles =>
    { s with queue := s.queue.addQueueData guid dungeons roles }
  | .removeFromQueue guid => { s with queue := s.queue.removeFromQueue guid }
  | .findGroups env => s.findGroups env
  | .updateProposal id guid accept => s.updateProposal id guid accept
  | .leaveLfg guid => s.leaveLfg guid
  | .timeOut id => s.timeOut id

/-- Each guid with queue data is in one place, and the guids that wait have queue data. -/
structure Placed (s : LfgFinder) : Prop where
  place : ∀ guid, s.queue.Has guid → s.queue.newToQueue.count guid +
    s.queue.currentQueue.count guid + s.pending.countP (fun p => guid ∈ p.queues) = 1
  has : ∀ guid ∈ s.queue.newToQueue ++ s.queue.currentQueue, s.queue.Has guid

/-- When a guid that joins has no queue data and is in no pending proposal, and a search reports no
match from what is stored and makes no second proposal with a guid. -/
def Meets (s : LfgFinder) : Request → Prop
  | .addQueueData guid _ _ =>
    s.queue.queueData guid = none ∧ ∀ p ∈ s.pending, guid ∉ p.queues
  | .findGroups env => s.queue.DirectRounds env s.queue.newToQueue.length
  | _ => True

/-! ## The steps -/

variable {s : LfgFinder} {p : LfgPending} {guid id : ℕ}

/-- The guids of a pending proposal are distinct, and the ids are those of the counter. -/
structure Sound (s : LfgFinder) : Prop extends Placed s where
  nodup : ∀ p ∈ s.pending, p.queues.Nodup
  ids : (s.pending.map LfgPending.id).Nodup
  last : ∀ p ∈ s.pending, p.id ≤ s.lfgProposalId
  proposals : s.queue.proposals = []

theorem sound_empty : Sound {} where
  place _ h := by cases h
  has _ h := by cases h
  nodup _ h := by cases h
  ids := nodup_nil
  last _ h := by cases h
  proposals := rfl

section

variable (h : s.Sound)
include h

theorem Sound.addQueueData (hnone : s.queue.queueData guid = none)
    (hfree : ∀ p ∈ s.pending, guid ∉ p.queues) (dungeons : Finset ℕ) (roles : LfgRolesMap) :
    Sound { s with queue := s.queue.addQueueData guid dungeons roles } := by
  have hnew : s.queue.addQueueData guid dungeons roles =
      { s.queue with
        queueData := Function.update s.queue.queueData guid (some { dungeons, roles })
        newToQueue := s.queue.newToQueue ++ [guid] } := by
    rw [LfgQueue.addQueueData, LfgQueue.addToQueue, if_pos (by simp)]
  have hno : ¬ s.queue.Has guid := by
    rw [LfgQueue.Has, hnone]
    exact Bool.false_ne_true
  have hlists : s.queue.newToQueue.count guid + s.queue.currentQueue.count guid = 0 := by
    rw [← count_append]
    exact count_eq_zero.2 fun hmem => hno (h.has guid hmem)
  have hcount : (s.pending.countP fun p => guid ∈ p.queues) = 0 :=
    countP_eq_zero.2 fun p hp => by simpa using hfree p hp
  refine ⟨⟨fun g hg => ?_, fun g hg => ?_⟩, h.nodup, h.ids, h.last, ?_⟩
  · rw [LfgQueue.has_addQueueData] at hg
    rw [hnew]
    dsimp only
    rw [count_append, count_singleton]
    by_cases heq : g = guid
    · subst heq
      rw [if_pos (beq_self_eq_true g)]
      omega
    · rw [if_neg fun hc => heq (beq_iff_eq.1 hc).symm, add_zero]
      exact h.place g (hg.resolve_left heq)
  · rw [LfgQueue.has_addQueueData]
    rw [hnew, append_assoc, mem_append, mem_append, mem_singleton] at hg
    rcases hg with hg | hg | hg
    · exact .inr (h.has g (mem_append_left _ hg))
    · exact .inl hg
    · exact .inr (h.has g (mem_append_right _ hg))
  · rw [hnew]
    exact h.proposals

/-- Guids leave the queue. -/
theorem Sound.removeAll (l : List ℕ) :
    Sound { s with queue := l.foldl LfgQueue.removeFromQueue s.queue } := by
  obtain ⟨hhas, hnew, hcurrent, hproposals⟩ := LfgQueue.foldl_removeFromQueue l s.queue
  refine ⟨⟨fun g hg => ?_, fun g hg => ?_⟩, h.nodup, h.ids, h.last, hproposals.trans h.proposals⟩
  · obtain ⟨hl, hg⟩ := (hhas g).1 hg
    rw [hnew, hcurrent, LfgQueue.count_filter_not_mem, LfgQueue.count_filter_not_mem, if_neg hl,
      if_neg hl]
    exact h.place g hg
  · dsimp only at hg
    rw [hnew, hcurrent, ← filter_append, mem_filter] at hg
    exact (hhas g).2 ⟨by simpa using hg.2, h.has g hg.1⟩

/-- The answers in a pending proposal do not matter. -/
theorem Sound.replace {q : LfgPending} (hfind : Keyed.find LfgPending.id s.pending q.id = some p)
    (hqueues : q.queues = p.queues) :
    Sound { s with pending := Keyed.replace LfgPending.id s.pending q } := by
  have hid : ∀ {x}, x ∈ s.pending → x.id ≤ s.lfgProposalId ∧ x.queues.Nodup :=
    fun hx => ⟨h.last _ hx, h.nodup _ hx⟩
  obtain ⟨hp, hpid⟩ := Keyed.mem_of_find hfind
  have hall : ∀ x ∈ Keyed.replace LfgPending.id s.pending q,
      x.id ≤ s.lfgProposalId ∧ x.queues.Nodup := by
    intro x hx
    rcases Keyed.mem_replace hx with rfl | hx
    · exact ⟨hpid ▸ h.last p hp, hqueues ▸ h.nodup p hp⟩
    · exact hid hx
  refine ⟨⟨fun g hg => ?_, h.has⟩, fun x hx => (hall x hx).2, ?_, fun x hx => (hall x hx).1,
    h.proposals⟩
  · have hcount := countP_replace (fun p => decide (g ∈ p.queues)) h.ids hfind
    rw [hqueues] at hcount
    have hplace := h.place g hg
    dsimp only
    omega
  · rw [map_key_replace]
    exact h.ids

/-- A pending proposal of which no guid has queue data is erased. -/
theorem Sound.erase (hfind : Keyed.find LfgPending.id s.pending id = some p)
    (hnone : ∀ guid ∈ p.queues, ¬ s.queue.Has guid) : Sound (s.erase id) := by
  have hmem : ∀ {x}, x ∈ remove LfgPending.id s.pending id → x ∈ s.pending :=
    fun hx => (mem_remove.1 hx).1
  refine ⟨⟨fun g hg => ?_, h.has⟩, fun x hx => h.nodup x (hmem hx), nodup_remove h.ids id,
    fun x hx => h.last x (hmem hx), h.proposals⟩
  have hcount := countP_remove (fun p => decide (g ∈ p.queues)) h.ids hfind
  have hout : g ∉ p.queues := fun hc => hnone g hc hg
  rw [if_neg (by simpa using hout), add_zero] at hcount
  rw [LfgFinder.erase]
  rw [hcount]
  exact h.place g hg

/-- The guids of a pending proposal are new again when it is erased. -/
theorem Sound.requeue (hfind : Keyed.find LfgPending.id s.pending id = some p) {l : List ℕ}
    (hl : l.Nodup) (hmem : ∀ guid, s.queue.Has guid → (guid ∈ l ↔ guid ∈ p.queues)) :
    Sound ({ s with queue := l.foldl LfgQueue.addToQueue s.queue }.erase id) := by
  have hsub : ∀ {x}, x ∈ remove LfgPending.id s.pending id → x ∈ s.pending :=
    fun hx => (mem_remove.1 hx).1
  rw [LfgQueue.foldl_addToQueue, LfgFinder.erase]
  refine ⟨⟨fun g hg => ?_, fun g hg => ?_⟩, fun x hx => h.nodup x (hsub hx),
    nodup_remove h.ids id, fun x hx => h.last x (hsub hx), h.proposals⟩
  · have hhas : s.queue.Has g := hg
    have hcount := countP_remove (fun p => decide (g ∈ p.queues)) h.ids hfind
    have hplace := h.place g hhas
    dsimp only
    rw [count_append, count_filter (by exact hhas)]
    by_cases hp : g ∈ p.queues
    · rw [if_pos (by simpa using hp)] at hcount
      rw [count_eq_one_of_mem hl ((hmem g hhas).2 hp)]
      omega
    · rw [if_neg (by simpa using hp)] at hcount
      rw [count_eq_zero.2 fun hc => hp ((hmem g hhas).1 hc)]
      omega
  · rw [append_assoc] at hg
    rcases mem_append.1 hg with hg | hg
    · exact h.has g (mem_append_left _ hg)
    · rcases mem_append.1 hg with hg | hg
      · exact (mem_filter.1 hg).2
      · exact h.has g (mem_append_right _ hg)

/-- Those who did not agree leave, and the others are new again. -/
theorem Sound.removeProposal {q : LfgPending}
    (hfind : Keyed.find LfgPending.id s.pending q.id = some p) (hqueues : q.queues = p.queues)
    (type : LfgRemoval) : Sound (s.removeProposal q type) := by
  have hremoved := h.removeAll ((q.close type).toRemove type)
  have hhas := (LfgQueue.foldl_removeFromQueue ((q.close type).toRemove type) s.queue).1
  refine hremoved.requeue hfind ?_ fun guid hguid => ?_
  · rw [hqueues]
    exact (h.nodup p (Keyed.mem_of_find hfind).1).filter _
  · rw [hqueues, mem_filter, decide_eq_true_eq]
    exact and_iff_left ((hhas guid).1 hguid).1

end

theorem lfgProposalId_le (l : List LfgMatch) : ∀ s : LfgFinder,
    s.lfgProposalId ≤ (l.foldl addProposal s).lfgProposalId := by
  induction l with
  | nil => exact fun s => le_rfl
  | cons m l ih => exact fun s => (Nat.le_succ _).trans (ih (s.addProposal m))

/-- The proposals that were found go to the store. -/
theorem addProposals_spec (l : List LfgMatch) : ∀ s : LfgFinder,
    ∃ new : List LfgPending, (l.foldl addProposal s).pending = s.pending ++ new ∧
      (l.foldl addProposal s).queue = s.queue ∧ new.map LfgPending.queues = l.map LfgMatch.queues ∧
      (new.map LfgPending.id).Nodup ∧
      ∀ p ∈ new, s.lfgProposalId < p.id ∧ p.id ≤ (l.foldl addProposal s).lfgProposalId := by
  induction l with
  | nil =>
    intro s
    exact ⟨[], by simp⟩
  | cons m l ih =>
    intro s
    obtain ⟨new, hpending, hqueue, hqueues, hnodup, hids⟩ := ih (s.addProposal m)
    have hlast : (s.addProposal m).lfgProposalId = s.lfgProposalId + 1 := rfl
    have hle := lfgProposalId_le l (s.addProposal m)
    obtain ⟨first, hfirst, hid, hqueues'⟩ : ∃ p : LfgPending,
        (s.addProposal m).pending = s.pending ++ [p] ∧ p.id = s.lfgProposalId + 1 ∧
          p.queues = m.queues := ⟨_, rfl, rfl, rfl⟩
    refine ⟨first :: new, ?_, hqueue, ?_, ?_, ?_⟩
    · rw [foldl_cons, hpending, hfirst, append_assoc, singleton_append]
    · rw [map_cons, map_cons, hqueues, hqueues']
    · refine nodup_cons.2 ⟨fun hmem => ?_, hnodup⟩
      obtain ⟨p, hp, heq⟩ := mem_map.1 hmem
      have hlt := (hids p hp).1
      omega
    · intro p hp
      rw [foldl_cons]
      rcases mem_cons.1 hp with rfl | hp
      · omega
      · have hp := hids p hp
        omega

/-- A search that reports no match from what is stored gives every guid its place. -/
theorem Sound.findGroups (h : s.Sound) (env : LfgView)
    (hdirect : s.queue.DirectRounds env s.queue.newToQueue.length) : Sound (s.findGroups env) := by
  have hwaiting : LfgQueue.Waiting (fun guid => s.pending.countP fun p => guid ∈ p.queues) none
      s.queue := by
    refine ⟨fun guid hguid => ?_, h.has, ?_⟩
    · have hout : ¬ ((none : Option ℕ) = some guid) := by rintro ⟨⟩
      rw [LfgQueue.places, h.proposals, countP_nil, if_neg hout, add_zero, add_comm]
      exact h.place guid hguid
    · rw [h.proposals]
      rintro _ ⟨⟩
  obtain ⟨n, queue, heq, hfound, hdata⟩ := hwaiting.findGroups env 0 le_rfl hdirect
  rw [LfgFinder.findGroups, heq]
  dsimp only
  obtain ⟨new, hpending, hqueue, hqueues, hnodup, hids⟩ :=
    addProposals_spec queue.proposals { s with queue := { queue with proposals := [] } }
  have hnew : ∀ p ∈ new, p.queues.Nodup := by
    intro p hp
    have hmem : p.queues ∈ queue.proposals.map LfgMatch.queues :=
      hqueues ▸ mem_map_of_mem hp
    obtain ⟨m, hm, hm'⟩ := mem_map.1 hmem
    exact hm' ▸ hfound.nodup m hm
  have hcount : ∀ guid, (new.countP fun p => guid ∈ p.queues) =
      queue.proposals.countP fun m => guid ∈ m.queues := by
    intro guid
    have hmap := congrArg (List.countP fun l => decide (guid ∈ l)) hqueues
    rwa [countP_map, countP_map] at hmap
  have hle := lfgProposalId_le queue.proposals { s with queue := { queue with proposals := [] } }
  generalize queue.proposals.foldl addProposal _ = s' at hpending hqueue hids hle ⊢
  refine ⟨⟨fun guid hguid => ?_, fun guid hguid => ?_⟩, fun p hp => ?_, ?_, fun p hp => ?_, ?_⟩
  · have hout : ¬ ((none : Option ℕ) = some guid) := by rintro ⟨⟩
    rw [hqueue] at hguid ⊢
    have hplace := hfound.place guid hguid
    rw [LfgQueue.places, if_neg hout] at hplace
    rw [hpending, countP_append, hcount]
    dsimp only
    omega
  · rw [hqueue] at hguid ⊢
    exact hfound.has guid hguid
  · rw [hpending] at hp
    exact (mem_append.1 hp).elim (h.nodup p) (hnew p)
  · rw [hpending, map_append]
    refine nodup_append.2 ⟨h.ids, hnodup, fun i hi j hj => ?_⟩
    obtain ⟨p, hp, rfl⟩ := mem_map.1 hi
    obtain ⟨q, hq, rfl⟩ := mem_map.1 hj
    have hold := h.last p hp
    have hlate := (hids q hq).1
    dsimp only at hlate
    omega
  · rw [hpending] at hp
    rcases mem_append.1 hp with hp | hp
    · exact (h.last p hp).trans hle
    · exact (hids p hp).2
  · rw [hqueue]

theorem Sound.updateProposal (h : s.Sound) (id guid : ℕ) (accept : Bool) :
    Sound (s.updateProposal id guid accept) := by
  unfold LfgFinder.updateProposal
  cases hfind : Keyed.find LfgPending.id s.pending id with
  | none => exact h
  | some p =>
    dsimp only
    split
    · exact h
    generalize (if accept = true then LfgAnswer.agree else .deny) = answer
    obtain ⟨hmem, hid⟩ := Keyed.mem_of_find hfind
    subst hid
    have hanswered : Sound { s with
        pending := Keyed.replace LfgPending.id s.pending (p.answer guid answer) } :=
      h.replace hfind rfl
    have hfind' : Keyed.find LfgPending.id (Keyed.replace LfgPending.id s.pending
        (p.answer guid answer)) p.id = some (p.answer guid answer) :=
      Keyed.find_replace_self hfind
    split
    · refine hanswered.removeProposal (p := p.answer guid answer) ?_ rfl .declined
      exact hfind'
    split
    · have hhas := (LfgQueue.foldl_removeFromQueue p.queues s.queue).1
      exact (hanswered.removeAll p.queues).erase hfind' fun g hg hc => ((hhas g).1 hc).1 hg
    · exact hanswered

theorem Sound.leaveLfg (h : s.Sound) (guid : ℕ) : Sound (s.leaveLfg guid) := by
  unfold LfgFinder.leaveLfg
  cases hfind : s.pending.find? fun p => guid ∈ p.players.map LfgProposalPlayer.guid with
  | none => exact h
  | some p =>
    refine h.removeProposal (p := p) ?_ ?_ .declined
    · exact find_of_mem h.ids (mem_of_find?_eq_some hfind)
    · rfl

theorem Sound.timeOut (h : s.Sound) (id : ℕ) : Sound (s.timeOut id) := by
  unfold LfgFinder.timeOut
  cases hfind : Keyed.find LfgPending.id s.pending id with
  | none => exact h
  | some p =>
    obtain ⟨hmem, rfl⟩ := Keyed.mem_of_find hfind
    exact h.removeProposal hfind rfl .failed

theorem Sound.serve (h : s.Sound) {request : Request} (hmeets : s.Meets request) :
    Sound (s.serve request) := by
  cases request with
  | addQueueData guid dungeons roles => exact h.addQueueData hmeets.1 hmeets.2 dungeons roles
  | removeFromQueue guid => exact h.removeAll [guid]
  | findGroups env => exact h.findGroups env hmeets
  | updateProposal id guid accept => exact h.updateProposal id guid accept
  | leaveLfg guid => exact h.leaveLfg guid
  | timeOut id => exact h.timeOut id

/-- In a run from an empty dungeon finder each guid with queue data is in exactly one place, and the
guids that wait have queue data, as long as nobody joins who is queued or in a pending proposal, no
match is reported from what is stored, and no search makes two proposals with a guid. -/
theorem placed_run (requests : List Request) (hmeets : Along LfgFinder.serve Meets {} requests) :
    Placed (run LfgFinder.serve {} requests) := by
  have hstep : ∀ s request, Sound s → Meets s request → Sound (LfgFinder.serve s request) :=
    fun _ _ h hc => h.serve hc
  exact (invariant_run hstep sound_empty hmeets).toPlaced

/-- A group of four and a tank join, and a group is looked for. -/
def tankJoins : List Request :=
  [.addQueueData LfgQueue.fourPlayers {7} [(11, 0x04#8), (12, 0x08#8), (13, 0x08#8), (14, 0x08#8)],
    .addQueueData 1 {7} [(1, 0x02#8)], .findGroups LfgQueue.allQueuedView]

theorem direct_of_pending {env : LfgView} {s : LfgQueue} {check : List ℕ}
    (hsize : check.length ≤ 2) (hstored : s.getCompatibles (concatenateGuids check) = .pending)
    (hproposals : s.proposals = []) : LfgQueue.Direct env check s := by
  have hfree : LfgQueue.Unclaimed env s check := by
    intro _ m hm
    rw [hproposals] at hm
    cases hm
  unfold LfgQueue.Direct
  rw [hstored]
  cases check with
  | nil => trivial
  | cons guid check =>
    have hroom : ¬ maxGroupSize < (guid :: check).length :=
      not_lt.2 (hsize.trans (by decide))
    rw [LfgQueue.UnclaimedAlong, if_neg hroom, if_neg (not_lt.2 hsize)]
    exact hfree

/-- The tank declines, and the group stays in the queue. -/
theorem placed_run_tankDeclines : Placed (run LfgFinder.serve {}
    (tankJoins ++ [.updateProposal 2 1 false, .findGroups LfgQueue.allQueuedView])) := by
  have hpending : ∀ {check : List ℕ} {s : LfgQueue}, check.length ≤ 2 ∧
      s.getCompatibles (concatenateGuids check) = .pending ∧ s.proposals = [] →
        LfgQueue.Direct LfgQueue.allQueuedView check s :=
    fun h => direct_of_pending h.1 h.2.1 h.2.2
  refine placed_run _ ⟨⟨rfl, ?_⟩, ⟨rfl, ?_⟩, ⟨⟨hpending ?_, fun _ => trivial⟩,
    ⟨hpending ?_, fun _ => ⟨hpending ?_, trivial⟩⟩, trivial⟩, trivial,
    ⟨⟨hpending ?_, fun _ => trivial⟩, trivial⟩, trivial⟩
  · rintro _ ⟨⟩
  · rintro _ ⟨⟩
  · decide +kernel
  · decide +kernel
  · decide +kernel
  · decide +kernel

/-- The tank joins again while the proposal is pending. -/
theorem not_placed_joinsAgain :
    ¬ Placed (run LfgFinder.serve {} (tankJoins ++ [.addQueueData 1 {7} [(1, 0x02#8)]])) := by
  intro h
  have hhas : ((run LfgFinder.serve {} (tankJoins ++
      [.addQueueData 1 {7} [(1, 0x02#8)]])).queue.queueData 1).isSome = true := by decide +kernel
  have hplace := h.place 1 hhas
  revert hplace
  decide +kernel

end LfgFinder

end MistyWorld
