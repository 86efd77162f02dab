import MistyWorld.LfgBest

/-!
# The places of the guids in a search

`FindGroups` takes a guid off the new ones and puts it into the queue, unless a match is reported :
then it should be in the proposal of the match. But a match is also reported from what is stored :
a stored match, or stored bad states of a list whose guids are queued by now. No proposal is made
then, and the guid is nowhere. And a list is checked without its first guid before, which makes a
proposal if the rest is a group, while the search goes on with the guids of that proposal.

Where no match comes from what is stored, and no list makes a proposal with a guid that is in one
(`DirectRounds`), each guid with queue data keeps exactly one place (`Waiting.findGroups`).
-/

open List

namespace MistyWorld

namespace LfgQueue

/-! ## When a match has a proposal -/

/-- The guards under which `CheckCompatibility` makes a proposal of a list. -/
def MakesProposal (env : LfgView) (s : LfgQueue) (check : List ℕ) : Prop :=
  ∃ c roles, count env s check {} = .ok c ∧ c.numPlayers = maxGroupSize ∧ c.numLfgGroups ≤ 1 ∧
    agreedRoles env s check c.numPlayers = .ok roles ∧ env.allQueued check = true

/-- A list that makes a proposal has no guid of one that has been made. -/
def Unclaimed (env : LfgView) (s : LfgQueue) (check : List ℕ) : Prop :=
  MakesProposal env s check → ∀ m ∈ s.proposals, ∀ guid ∈ check, guid ∉ m.queues

/-- The lists that `CheckCompatibility` goes through. -/
def UnclaimedAlong (env : LfgView) : List ℕ → LfgQueue → Prop
  | [], _ => True
  | guid :: check, s =>
    if maxGroupSize < (guid :: check).length then True
    else if 2 < (guid :: check).length then
      let child := checkCompatibility env check s
      UnclaimedAlong env check s ∧
        (LfgCompatibility.withLessPlayers.toNat ≤ child.1.toNat →
          Unclaimed env child.2 (guid :: check))
    else Unclaimed env s (guid :: check)

/-- No match is reported from what is stored : neither a stored one, nor stored bad states of a
list that is queued now. -/
def Direct (env : LfgView) (check : List ℕ) (s : LfgQueue) : Prop :=
  match s.getCompatibles (concatenateGuids check) with
  | .matched => False
  | .badStates => env.allQueued check = false
  | .pending => UnclaimedAlong env check s
  | _ => True

/-- The lists of a search. -/
def DirectSearch (env : LfgView) : List ℕ → List ℕ → LfgQueue → Prop
  | _, [], _ => True
  | check, guid :: all, s =>
    Direct env (check ++ [guid]) s ∧
      let found := lookCompatibility env (check ++ [guid]) s
      if found.1 = .matched then True
      else if found.1 = .withLessPlayers then DirectSearch env (check ++ [guid]) all found.2
      else DirectSearch env check all found.2

/-- `FindNewGroups` for a new guid, in one pass. -/
def findFor (env : LfgView) (guid : ℕ) (s : LfgQueue) : LfgCompatibility × LfgQueue :=
  let found := lookCompatibility env [guid] s
  if found.1 = .withLessPlayers then search env [guid] s.currentQueue found.2 else found

/-- `RemoveFromNewQueue` -/
def takeNew (guid : ℕ) (s : LfgQueue) : LfgQueue :=
  { s with newToQueue := s.newToQueue.filter (· ≠ guid) }

/-- A round of `FindGroups`. -/
def findRound (env : LfgView) (guid : ℕ) (s : LfgQueue) : LfgQueue :=
  let found := findFor env guid (s.takeNew guid)
  if found.1 = .matched then found.2
  else { found.2 with currentQueue := found.2.currentQueue ++ [guid] }

/-- The lists of a round. -/
def DirectRound (env : LfgView) (guid : ℕ) (s : LfgQueue) : Prop :=
  Direct env [guid] s ∧
    let found := lookCompatibility env [guid] s
    (found.1 = .withLessPlayers → DirectSearch env [guid] s.currentQueue found.2)

/-- The lists of `FindGroups`, in the given number of rounds. -/
def DirectRounds (env : LfgView) : ℕ → LfgQueue → Prop
  | 0, _ => True
  | rounds + 1, s =>
    match s.newToQueue with
    | [] => True
    | guid :: _ =>
      DirectRound env guid (s.takeNew guid) ∧ DirectRounds env rounds (findRound env guid s)

/-! ## What a check changes -/

variable {env : LfgView} {s s' : LfgQueue} {check all : List ℕ} {guid front : ℕ}

/-- No guid is moved. -/
structure SamePlaces (s s' : LfgQueue) : Prop where
  data : SameData s s'
  newToQueue : s'.newToQueue = s.newToQueue
  currentQueue : s'.currentQueue = s.currentQueue
  proposals : s'.proposals = s.proposals

theorem SamePlaces.refl (s : LfgQueue) : SamePlaces s s :=
  ⟨.refl s, rfl, rfl, rfl⟩

theorem SamePlaces.trans {s'' : LfgQueue} (h : SamePlaces s s') (h' : SamePlaces s' s'') :
    SamePlaces s s'' :=
  ⟨h.data.trans h'.data, h'.newToQueue.trans h.newToQueue, h'.currentQueue.trans h.currentQueue,
    h'.proposals.trans h.proposals⟩

theorem SameData.has (h : SameData s s') (guid : ℕ) : s'.Has guid ↔ s.Has guid := by
  have hguid := congrArg Option.isSome (h guid)
  rw [Option.isSome_map, Option.isSome_map] at hguid
  rw [Has, Has, hguid]

theorem samePlaces_setCompatibles (key : LfgKey) (compatibles : LfgCompatibility) :
    SamePlaces s (s.setCompatibles key compatibles) :=
  ⟨.refl s, rfl, rfl, rfl⟩

theorem samePlaces_less (roles : LfgRolesMap) (key : LfgKey) (data : LfgCompatibilityData) :
    SamePlaces s ((check.foldl (updateBestOf key roles) s).setCompatibilityData key data) := by
  have hfold : ∀ s, SamePlaces s (check.foldl (updateBestOf key roles) s) := by
    induction check with
    | nil => exact SamePlaces.refl
    | cons guid check ih =>
      exact fun s => SamePlaces.trans ⟨sameData_updateBestOf key roles, rfl, rfl, rfl⟩ (ih _)
  exact (hfold s).trans ⟨.refl _, rfl, rfl, rfl⟩

theorem filter_not_mem_cons (guid : ℕ) (check l : List ℕ) :
    (l.filter (· ≠ guid)).filter (· ∉ check) = l.filter (· ∉ guid :: check) := by
  rw [filter_filter]
  refine filter_congr fun g _ => ?_
  rw [Bool.eq_iff_iff]
  simp [and_comm]

/-- The guids of a proposal leave both lists. -/
theorem foldl_leaveQueues (check : List ℕ) : ∀ s : LfgQueue, check.foldl leaveQueues s =
    { s with
      newToQueue := s.newToQueue.filter (· ∉ check)
      currentQueue := s.currentQueue.filter (· ∉ check) } := by
  induction check with
  | nil =>
    intro s
    simp
  | cons guid check ih =>
    intro s
    rw [foldl_cons, ih, leaveQueues]
    simp only [filter_not_mem_cons]

/-- A proposal is made of a list. -/
structure Proposes (check : List ℕ) (s s' : LfgQueue) : Prop where
  data : SameData s s'
  newToQueue : s'.newToQueue = s.newToQueue.filter (· ∉ check)
  currentQueue : s'.currentQueue = s.currentQueue.filter (· ∉ check)
  proposals : ∃ m, m.queues = check ∧ s'.proposals = s.proposals ++ [m]

theorem proposes_matched (c : Count) (roles : LfgRolesMap) (key : LfgKey) :
    Proposes check s ({ check.foldl leaveQueues s with
      proposals := (check.foldl leaveQueues s).proposals ++ [proposal env check c roles]
      }.setCompatibles key .matched) := by
  rw [foldl_leaveQueues]
  exact ⟨.refl s, rfl, rfl, _, rfl, rfl⟩

/-- What the check of a list comes to : a proposal under the guards, or nothing. -/
theorem checkGroups_cases (env : LfgView) (hall : ∀ guid ∈ check, s.Has guid) :
    (MakesProposal env s check ∧ (checkGroups env check s).1 = .matched ∧
      Proposes check s (checkGroups env check s).2) ∨
    ((checkGroups env check s).1 ≠ .matched ∧ SamePlaces s (checkGroups env check s).2 ∧
      ((checkGroups env check s).1 = .badStates → env.allQueued check = false)) := by
  obtain ⟨c, hc⟩ := count_ok env hall {}
  unfold checkGroups
  rw [hc]
  dsimp only
  split_ifs with hsingle hgroups hplayers
  · exact .inr ⟨by rintro ⟨⟩, samePlaces_less _ _ _, by rintro ⟨⟩⟩
  · exact .inr ⟨by rintro ⟨⟩, samePlaces_setCompatibles _ _, by rintro ⟨⟩⟩
  · exact .inr ⟨by rintro ⟨⟩, samePlaces_setCompatibles _ _, by rintro ⟨⟩⟩
  cases hroles : agreedRoles env s check c.numPlayers with
  | error compatibility =>
    have hreason : compatibility ≠ .matched ∧ compatibility ≠ .badStates := by
      unfold agreedRoles at hroles
      dsimp only at hroles
      split_ifs at hroles <;> cases hroles <;> decide
    exact .inr ⟨hreason.1, samePlaces_setCompatibles _ _, fun h => absurd h hreason.2⟩
  | ok roles =>
    unfold checkAgreed
    split_ifs with hless hqueued
    · exact .inr ⟨by rintro ⟨⟩, samePlaces_less _ _ _, by rintro ⟨⟩⟩
    · exact .inr ⟨by rintro ⟨⟩, samePlaces_setCompatibles _ _, fun _ => by simpa using hqueued⟩
    · rw [Bool.not_eq_true', Bool.not_eq_false] at hqueued
      exact .inl ⟨⟨c, roles, hc, not_not.1 hless, not_lt.1 hgroups, hroles, hqueued⟩, rfl,
        proposes_matched c roles _⟩

/-! ## The search -/

/-- The places of a guid that a queue knows. -/
def places (s : LfgQueue) (guid : ℕ) : ℕ :=
  s.newToQueue.count guid + s.currentQueue.count guid +
    s.proposals.countP fun m => guid ∈ m.queues

/-- In a search with the guid `out`, which has no place, the others have one. The guids have places
elsewhere by `base`. -/
structure Waiting (base : ℕ → ℕ) (out : Option ℕ) (s : LfgQueue) : Prop where
  place : ∀ guid, s.Has guid → base guid + s.places guid = if out = some guid then 0 else 1
  has : ∀ guid ∈ s.newToQueue ++ s.currentQueue, s.Has guid
  nodup : ∀ m ∈ s.proposals, m.queues.Nodup

variable {base : ℕ → ℕ} {out : Option ℕ}

theorem Waiting.of_samePlaces (h : Waiting base out s) (hs : SamePlaces s s') :
    Waiting base out s' := by
  refine ⟨fun guid hguid => ?_, fun guid hguid => ?_, ?_⟩
  · rw [places, hs.newToQueue, hs.currentQueue, hs.proposals]
    exact h.place guid ((hs.data.has guid).1 hguid)
  · rw [hs.newToQueue, hs.currentQueue] at hguid
    exact (hs.data.has guid).2 (h.has guid hguid)
  · rw [hs.proposals]
    exact h.nodup

theorem count_filter_not_mem (l : List ℕ) (guid : ℕ) :
    (l.filter (· ∉ check)).count guid = if guid ∈ check then 0 else l.count guid := by
  split_ifs with hguid
  · exact count_eq_zero.2 fun h => by simpa [hguid] using of_mem_filter h
  · exact count_filter (by simpa using hguid)

theorem Waiting.of_proposes (h : Waiting base (some front) s) (hs : Proposes check s s')
    (hnodup : check.Nodup) (hbase : ∀ guid ∈ check, base guid = 0)
    (hfree : ∀ m ∈ s.proposals, ∀ guid ∈ check, guid ∉ m.queues) :
    Waiting base (if front ∈ check then none else some front) s' := by
  obtain ⟨m, hm, hproposals⟩ := hs.proposals
  refine ⟨fun guid hguid => ?_, fun guid hguid => ?_, fun m' hm' => ?_⟩
  · have hplace := h.place guid ((hs.data.has guid).1 hguid)
    rw [places, hs.newToQueue, hs.currentQueue, hproposals, countP_append,
      count_filter_not_mem, count_filter_not_mem, countP_singleton, hm]
    by_cases hcheck : guid ∈ check
    · have hnone : (s.proposals.countP fun m => guid ∈ m.queues) = 0 := by
        rw [countP_eq_zero]
        exact fun m hm => by simpa using hfree m hm guid hcheck
      have hout : (if front ∈ check then none else some front) ≠ some guid := by
        split_ifs with hfront
        · rintro ⟨⟩
        · rintro ⟨⟩
          exact hfront hcheck
      rw [if_pos hcheck, if_pos hcheck, hnone, hbase guid hcheck, if_neg hout]
      simp [hcheck]
    · have hout : (if front ∈ check then none else some front) = some guid ↔
          some front = some guid := by
        split_ifs with hfront
        · refine iff_of_false (by rintro ⟨⟩) ?_
          rintro ⟨⟩
          exact hcheck hfront
        · rfl
      simp only [hcheck, decide_false, hout]
      exact hplace
  · rw [hs.newToQueue, hs.currentQueue] at hguid
    refine (hs.data.has guid).2 (h.has guid ?_)
    rcases mem_append.1 hguid with hguid | hguid
    · exact mem_append_left _ (mem_of_mem_filter hguid)
    · exact mem_append_right _ (mem_of_mem_filter hguid)
  · rw [hproposals] at hm'
    rcases mem_append.1 hm' with hm' | hm'
    · exact h.nodup m' hm'
    · rw [mem_singleton.1 hm', hm]
      exact hnodup

/-- What the check of a list comes to, while the guid `front` is out. -/
structure Checks (base : ℕ → ℕ) (front : ℕ) (env : LfgView) (check : List ℕ) (s : LfgQueue)
    (r : LfgCompatibility × LfgQueue) : Prop where
  data : SameData s r.2
  newToQueue : r.2.newToQueue.Sublist s.newToQueue
  waiting : Waiting base (if r.1 = .matched ∧ front ∈ check then none else some front) r.2
  badStates : r.1 = .badStates → env.allQueued check = false

theorem Checks.of_samePlaces {r : LfgCompatibility × LfgQueue}
    (h : Waiting base (some front) s) (hs : SamePlaces s r.2) (hmatched : r.1 ≠ .matched)
    (hbad : r.1 = .badStates → env.allQueued check = false) : Checks base front env check s r := by
  refine ⟨hs.data, hs.newToQueue ▸ List.Sublist.refl _, ?_, hbad⟩
  rw [if_neg fun hc => hmatched hc.1]
  exact h.of_samePlaces hs

theorem Waiting.checkGroups (env : LfgView) (h : Waiting base (some front) s)
    (hall : ∀ guid ∈ check, s.Has guid) (hnodup : check.Nodup)
    (hbase : ∀ guid ∈ check, base guid = 0) (hfree : Unclaimed env s check) :
    Checks base front env check s (checkGroups env check s) := by
  rcases checkGroups_cases env hall with ⟨hmakes, hmatched, hs⟩ | ⟨hmatched, hs, hbad⟩
  · refine ⟨hs.data, hs.newToQueue ▸ filter_sublist, ?_, fun h => ?_⟩
    · have hwaiting := h.of_proposes hs hnodup hbase (hfree hmakes)
      simpa only [hmatched, true_and] using hwaiting
    · rw [hmatched] at h
      cases h
  · exact .of_samePlaces h hs hmatched hbad

/-- A list is checked, and those without its first guids. -/
theorem Waiting.checkCompatibility (env : LfgView) : ∀ {check : List ℕ} {s : LfgQueue},
    Waiting base (some front) s → (∀ guid ∈ check, s.Has guid) → check.Nodup →
    (∀ guid ∈ check, base guid = 0) → front ∉ check.tail → UnclaimedAlong env check s →
    Checks base front env check s (checkCompatibility env check s)
  | [], s, h, _, _, _, _, _ => .of_samePlaces h (.refl s) (by rintro ⟨⟩) (by rintro ⟨⟩)
  | guid :: check, s, h, hall, hnodup, hbase, hfront, hfree => by
    have hrest : UnclaimedAlong env check s →
        Checks base front env check s (LfgQueue.checkCompatibility env check s) :=
      h.checkCompatibility env (fun g hg => hall g (mem_cons_of_mem guid hg))
        (nodup_cons.1 hnodup).2 (fun g hg => hbase g (mem_cons_of_mem guid hg))
        fun hg => hfront (mem_of_mem_tail hg)
    rw [UnclaimedAlong] at hfree
    rw [LfgQueue.checkCompatibility]
    dsimp only at hfree ⊢
    by_cases hsize : maxGroupSize < (guid :: check).length
    · rw [if_pos hsize]
      exact .of_samePlaces h (.refl s) (by rintro ⟨⟩) (by rintro ⟨⟩)
    rw [if_neg hsize] at hfree ⊢
    by_cases hlong : 2 < (guid :: check).length
    · rw [if_pos hlong] at hfree ⊢
      have hchild := hrest hfree.1
      have hwaiting := hchild.waiting
      rw [if_neg fun hc => hfront hc.2] at hwaiting
      generalize LfgQueue.checkCompatibility env check s = child at hchild hwaiting hfree ⊢
      split_ifs with hless
      · have hreason : child.1 ≠ .matched ∧ child.1 ≠ .badStates := by
          constructor <;>
          · intro heq
            rw [heq] at hless
            exact absurd hless (by decide)
        have hs : SamePlaces child.2
            (child.2.setCompatibles (concatenateGuids (guid :: check)) child.1) :=
          samePlaces_setCompatibles _ _
        refine ⟨hchild.data.trans hs.data, hchild.newToQueue, ?_, fun hbad => absurd hbad hreason.2⟩
        rw [if_neg fun hc => hreason.1 hc.1]
        exact hwaiting.of_samePlaces hs
      · have hgroups := hwaiting.checkGroups env (fun g hg => (hchild.data.has g).2 (hall g hg))
          hnodup hbase (hfree.2 (not_lt.1 hless))
        exact ⟨hchild.data.trans hgroups.data, hgroups.newToQueue.trans hchild.newToQueue,
          hgroups.waiting, hgroups.badStates⟩
    · rw [if_neg hlong] at hfree ⊢
      exact h.checkGroups env hall hnodup hbase hfree

/-- What a search comes to : the guid `front` has a place when a match is reported. -/
structure Reports (base : ℕ → ℕ) (front : ℕ) (s : LfgQueue) (r : LfgCompatibility × LfgQueue) :
    Prop where
  data : SameData s r.2
  newToQueue : r.2.newToQueue.Sublist s.newToQueue
  waiting : Waiting base (if r.1 = .matched then none else some front) r.2

theorem Waiting.reports {c : LfgCompatibility} (h : Waiting base (some front) s)
    (hc : c ≠ .matched) : Reports base front s (c, s) := by
  refine ⟨.refl s, List.Sublist.refl _, ?_⟩
  rwa [if_neg hc]

theorem Reports.trans {r r' : LfgCompatibility × LfgQueue} (h : Reports base front s r)
    (h' : Reports base front r.2 r') : Reports base front s r' :=
  ⟨h.data.trans h'.data, h'.newToQueue.trans h.newToQueue, h'.waiting⟩

/-- A list that begins with the guid that is out. -/
theorem Waiting.lookCompatibility (env : LfgView) (h : Waiting base (some front) s)
    (rest : List ℕ) (hall : ∀ guid ∈ front :: rest, s.Has guid) (hnodup : (front :: rest).Nodup)
    (hbase : ∀ guid ∈ front :: rest, base guid = 0) (hdirect : Direct env (front :: rest) s) :
    Reports base front s (lookCompatibility env (front :: rest) s) := by
  unfold Direct at hdirect
  cases hstored : s.getCompatibles (concatenateGuids (front :: rest)) with
  | pending =>
    rw [hstored] at hdirect
    have hfound := h.checkCompatibility env hall hnodup hbase (nodup_cons.1 hnodup).1 hdirect
    have hno : ¬ ((LfgQueue.checkCompatibility env (front :: rest) s).1 = .badStates ∧
        env.allQueued (front :: rest) = true) := by
      rintro ⟨hbad, hqueued⟩
      exact Bool.false_ne_true ((hfound.badStates hbad).symm.trans hqueued)
    unfold LfgQueue.lookCompatibility
    dsimp only
    rw [hstored, if_pos rfl, if_neg hno]
    exact ⟨hfound.data, hfound.newToQueue, by simpa using hfound.waiting⟩
  | badStates =>
    rw [hstored] at hdirect
    have hne : ¬ (LfgCompatibility.badStates = .pending) := by decide
    have hno : ¬ (LfgCompatibility.badStates = .badStates ∧
        env.allQueued (front :: rest) = true) := by
      rintro ⟨-, hqueued⟩
      exact Bool.false_ne_true (hdirect.symm.trans hqueued)
    unfold LfgQueue.lookCompatibility
    dsimp only
    rw [hstored, if_neg hne, if_neg hno]
    exact h.reports (by decide)
  | matched =>
    rw [hstored] at hdirect
    exact hdirect.elim
  | _ =>
    rw [lookCompatibility_of_ne hstored (by decide) (by decide)]
    exact h.reports (by decide)

/-- A search that begins with the guid that is out. -/
theorem Waiting.search (env : LfgView) : ∀ {all rest : List ℕ} {s : LfgQueue},
    Waiting base (some front) s → (∀ guid ∈ front :: rest ++ all, s.Has guid) →
    (front :: rest ++ all).Nodup → (∀ guid ∈ front :: rest ++ all, base guid = 0) →
    DirectSearch env (front :: rest) all s →
    Reports base front s (search env (front :: rest) all s)
  | [], _, _, h, _, _, _, _ => h.reports (by decide)
  | guid :: all, rest, s, h, hall, hnodup, hbase, hdirect => by
    rw [LfgQueue.search]
    have hlist : front :: (rest ++ [guid]) ++ all = front :: rest ++ guid :: all := by simp
    have htaken : (front :: (rest ++ [guid])).Sublist (front :: rest ++ guid :: all) :=
      hlist ▸ sublist_append_left _ _
    have hskip : (front :: rest ++ all).Sublist (front :: rest ++ guid :: all) :=
      (List.Sublist.refl (front :: rest)).append (sublist_cons_self guid all)
    have hfound := h.lookCompatibility env (rest ++ [guid])
      (fun g hg => hall g (htaken.subset hg)) (hnodup.sublist htaken)
      (fun g hg => hbase g (htaken.subset hg)) hdirect.1
    replace hdirect := hdirect.2
    rw [cons_append] at hdirect ⊢
    generalize LfgQueue.lookCompatibility env (front :: (rest ++ [guid])) s = found
      at hfound hdirect ⊢
    by_cases hmatched : found.1 = .matched
    · rw [if_pos hmatched]
      exact hfound
    have hwaiting := hfound.waiting
    rw [if_neg hmatched] at hwaiting hdirect ⊢
    have hhas : ∀ g ∈ front :: rest ++ guid :: all, found.2.Has g :=
      fun g hg => (hfound.data.has g).2 (hall g hg)
    by_cases hless : found.1 = .withLessPlayers
    · rw [if_pos hless] at hdirect ⊢
      rw [← hlist] at hhas hnodup hbase
      exact hfound.trans (hwaiting.search env hhas hnodup hbase hdirect)
    · rw [if_neg hless] at hdirect ⊢
      exact hfound.trans (hwaiting.search env (fun g hg => hhas g (hskip.subset hg))
        (hnodup.sublist hskip) (fun g hg => hbase g (hskip.subset hg)) hdirect)

/-! ## The rounds -/

/-- A guid that waits has no other place. -/
theorem Waiting.alone (h : Waiting base out s) (hguid : guid ∈ s.newToQueue ++ s.currentQueue) :
    base guid = 0 ∧ s.newToQueue.count guid + s.currentQueue.count guid = 1 ∧
      (s.proposals.countP fun m => guid ∈ m.queues) = 0 := by
  have hplace := h.place guid (h.has guid hguid)
  have hpos : 0 < s.newToQueue.count guid + s.currentQueue.count guid := by
    rw [← count_append]
    exact count_pos_iff.2 hguid
  rw [places] at hplace
  split_ifs at hplace <;> omega

theorem Waiting.nodup_currentQueue (h : Waiting base out s) : s.currentQueue.Nodup := by
  refine nodup_iff_count_le_one.2 fun guid => ?_
  by_cases hguid : guid ∈ s.currentQueue
  · have hone := (h.alone (mem_append_right _ hguid)).2.1
    omega
  · rw [count_eq_zero.2 hguid]
    exact Nat.zero_le 1

theorem Waiting.findFor (env : LfgView) (h : Waiting base (some front) s) (hhas : s.Has front)
    (hdirect : DirectRound env front s) : Reports base front s (findFor env front s) := by
  have hplace := h.place front hhas
  rw [if_pos rfl, places] at hplace
  have hbase : base front = 0 := by omega
  have hout : front ∉ s.currentQueue := fun hmem => by
    have hpos := count_pos_iff.2 hmem
    omega
  have hfound := h.lookCompatibility env []
    (fun g hg => mem_singleton.1 hg ▸ hhas) (nodup_singleton front)
    (fun g hg => mem_singleton.1 hg ▸ hbase) hdirect.1
  replace hdirect := hdirect.2
  unfold LfgQueue.findFor
  generalize LfgQueue.lookCompatibility env [front] s = found at hfound hdirect ⊢
  dsimp only at hdirect ⊢
  split_ifs with hless
  · have hwaiting := hfound.waiting
    rw [hless, if_neg (by decide)] at hwaiting
    have hlist : ∀ g ∈ front :: [] ++ s.currentQueue, s.Has g ∧ base g = 0 := by
      intro g hg
      rcases mem_cons.1 hg with rfl | hg
      · exact ⟨hhas, hbase⟩
      · exact ⟨h.has g (mem_append_right _ hg), (h.alone (mem_append_right _ hg)).1⟩
    exact hfound.trans (hwaiting.search env (fun g hg => (hfound.data.has g).2 (hlist g hg).1)
      (nodup_cons.2 ⟨hout, h.nodup_currentQueue⟩) (fun g hg => (hlist g hg).2)
      (hdirect hless))
  · exact hfound

/-- A guid is taken off the new ones. -/
theorem Waiting.takeNew (h : Waiting base none s) (hfront : front ∈ s.newToQueue) :
    Waiting base (some front) (s.takeNew front) := by
  obtain ⟨hbase, hone, hnone⟩ := h.alone (mem_append_left s.currentQueue hfront)
  refine ⟨fun guid hguid => ?_, fun guid hguid => ?_, h.nodup⟩
  · have hplace := h.place guid hguid
    rw [places, LfgQueue.takeNew]
    dsimp only
    by_cases hg : guid = front
    · subst hg
      have hgone : (s.newToQueue.filter (· ≠ guid)).count guid = 0 :=
        count_eq_zero.2 fun hc => by simpa using of_mem_filter hc
      have hpos := count_pos_iff.2 hfront
      rw [if_pos rfl, hbase, hgone, hnone]
      omega
    · rw [if_neg fun hc => hg (Option.some.inj hc).symm,
        count_filter (by simpa using hg)]
      exact hplace
  · refine h.has guid ?_
    rcases mem_append.1 hguid with hguid | hguid
    · exact mem_append_left _ (mem_of_mem_filter hguid)
    · exact mem_append_right _ hguid

/-- A guid without a place is put into the queue. -/
theorem Waiting.addToCurrent (h : Waiting base (some front) s) (hhas : s.Has front) :
    Waiting base none { s with currentQueue := s.currentQueue ++ [front] } := by
  refine ⟨fun guid hguid => ?_, fun guid hguid => ?_, h.nodup⟩
  · have hplace := h.place guid hguid
    have hout : ¬ ((none : Option ℕ) = some guid) := by rintro ⟨⟩
    rw [places] at hplace ⊢
    rw [count_append, count_singleton, if_neg hout]
    by_cases hg : guid = front
    · subst hg
      rw [if_pos rfl] at hplace
      rw [if_pos (beq_self_eq_true guid)]
      dsimp only
      omega
    · rw [if_neg fun hc => hg (Option.some.inj hc).symm] at hplace
      rw [if_neg fun hc => hg (beq_iff_eq.1 hc).symm, Nat.add_zero]
      exact hplace
  · rw [← append_assoc] at hguid
    rcases mem_append.1 hguid with hguid | hguid
    · exact h.has guid hguid
    · exact mem_singleton.1 hguid ▸ hhas

theorem Waiting.findRound (env : LfgView) {rest : List ℕ} (h : Waiting base none s)
    (hnew : s.newToQueue = front :: rest) (hdirect : DirectRound env front (s.takeNew front)) :
    Waiting base none (findRound env front s) ∧ SameData s (findRound env front s) ∧
      (findRound env front s).newToQueue.length ≤ rest.length := by
  have hmem : front ∈ s.newToQueue := hnew ▸ mem_cons_self
  have hhas : s.Has front := h.has front (mem_append_left _ hmem)
  have hfound := (h.takeNew hmem).findFor env hhas hdirect
  have hlength : (LfgQueue.findFor env front (s.takeNew front)).2.newToQueue.length ≤
      rest.length := by
    refine hfound.newToQueue.length_le.trans ?_
    rw [LfgQueue.takeNew, hnew, filter_cons_of_neg (by simp)]
    exact length_filter_le _ _
  have hdata : SameData s (LfgQueue.findFor env front (s.takeNew front)).2 := hfound.data
  have hwaiting := hfound.waiting
  unfold LfgQueue.findRound
  dsimp only
  split_ifs at hwaiting ⊢ with hmatched
  · exact ⟨hwaiting, hdata, hlength⟩
  · exact ⟨hwaiting.addToCurrent ((hdata.has front).2 hhas), hdata, hlength⟩

/-- `FindGroups` goes through the rounds. -/
theorem findGroups_cons (env : LfgView) {rest : List ℕ} (hnew : s.newToQueue = front :: rest)
    (rounds proposals : ℕ) : ∃ n, findGroups env (rounds + 1) proposals s =
      findGroups env rounds n (findRound env front s) := by
  obtain ⟨hstop, hgo⟩ := findNewGroups_eq env [front] (s.takeNew front)
    (Nat.lt_succ_self s.currentQueue.length)
  have heq : ∃ left, findNewGroups env (s.currentQueue.length + 1) [front] s.currentQueue
      (s.takeNew front) = some ((findFor env front (s.takeNew front)).1, left,
        (findFor env front (s.takeNew front)).2) := by
    unfold findFor
    dsimp only
    split_ifs with hless
    · exact hgo hless
    · exact hstop hless
  obtain ⟨left, heq⟩ := heq
  refine ⟨if (findFor env front (s.takeNew front)).1 = .matched then (proposals + 1) % 256
    else proposals, ?_⟩
  rw [findRound]
  rw [takeNew] at heq ⊢
  conv_lhs => unfold LfgQueue.findGroups
  rw [hnew] at heq ⊢
  dsimp only
  rw [heq]
  dsimp only
  split_ifs <;> rfl

/-- `FindGroups` ends, and every guid with queue data has a place. -/
theorem Waiting.findGroups (env : LfgView) : ∀ {rounds : ℕ} (proposals : ℕ) {s : LfgQueue},
    Waiting base none s → s.newToQueue.length ≤ rounds → DirectRounds env rounds s →
      ∃ n s', findGroups env rounds proposals s = some (n, s') ∧ Waiting base none s' ∧
        SameData s s'
  | 0, proposals, s, h, hrounds, _ => by
    have hnew := length_eq_zero_iff.1 (Nat.le_zero.1 hrounds)
    exact ⟨proposals, s, by simp [LfgQueue.findGroups, hnew], h, .refl s⟩
  | rounds + 1, proposals, s, h, hrounds, hdirect => by
    cases hnew : s.newToQueue with
    | nil => exact ⟨proposals, s, by simp [LfgQueue.findGroups, hnew], h, .refl s⟩
    | cons front rest =>
      rw [DirectRounds, hnew] at hdirect
      obtain ⟨hwaiting, hdata, hlength⟩ := h.findRound env hnew hdirect.1
      obtain ⟨n, heq⟩ := findGroups_cons env hnew rounds proposals
      rw [hnew, length_cons] at hrounds
      obtain ⟨k, s', hrun, hwaiting', hdata'⟩ := hwaiting.findGroups env n
        (hlength.trans (Nat.le_of_succ_le_succ hrounds)) hdirect.2
      exact ⟨k, s', heq.trans hrun, hwaiting', hdata.trans hdata'⟩

/-! ## What leaves and what comes back -/

theorem foldl_removeFromQueue (l : List ℕ) : ∀ s : LfgQueue,
    (∀ guid, (l.foldl removeFromQueue s).Has guid ↔ guid ∉ l ∧ s.Has guid) ∧
      (l.foldl removeFromQueue s).newToQueue = s.newToQueue.filter (· ∉ l) ∧
      (l.foldl removeFromQueue s).currentQueue = s.currentQueue.filter (· ∉ l) ∧
      (l.foldl removeFromQueue s).proposals = s.proposals := by
  induction l with
  | nil =>
    intro s
    simp
  | cons guid l ih =>
    intro s
    obtain ⟨hhas, hnew, hcurrent, hproposals⟩ := ih (s.removeFromQueue guid)
    refine ⟨fun g => ?_, ?_, ?_, hproposals⟩
    · rw [foldl_cons, hhas, has_removeFromQueue, mem_cons, not_or, ← and_assoc,
        and_comm (a := g ∉ l)]
    · rw [foldl_cons, hnew]
      exact filter_not_mem_cons guid l s.newToQueue
    · rw [foldl_cons, hcurrent]
      exact filter_not_mem_cons guid l s.currentQueue

/-- Those with queue data are new again. -/
theorem foldl_addToQueue (l : List ℕ) : ∀ s : LfgQueue, l.foldl addToQueue s =
    { s with newToQueue := s.newToQueue ++ l.filter fun g => (s.queueData g).isSome } := by
  induction l with
  | nil =>
    intro s
    simp
  | cons guid l ih =>
    intro s
    rw [foldl_cons, ih, addToQueue]
    cases hdata : s.queueData guid <;> simp [hdata]

end LfgQueue

end MistyWorld
