import MistyWorld.BattlegroundQueue

/-!
# Waiting for a battleground

After a time a premade group is moved to the normal queue, and the ratings of a rated team are no
longer looked at. Both times are subtracted from the time of the server as 32-bit words, and the
result is compared with the time when the group joined. As long as the server has run for less than
such a time, the difference is beyond every time of joining, and each group passes for one that has
waited for long (`waiting_iff`).
-/

open Option List Word

namespace MistyWorld

namespace BattlegroundQueue

/-- A premade group is moved to the normal queue of its faction. -/
def MovesToNormal (q q' : BattlegroundQueue) (bracket : BracketId) (team : Team) (g : ℕ) : Prop :=
  q'.queuedGroups (bracket, .normal team) = g :: q.queuedGroups (bracket, .normal team)

/-- The teams that are to fight, for the rating that is looked for. -/
def ratedTeams (q : BattlegroundQueue) (req : QueueUpdate) (arenaRating : ℕ) :
    Option ((ℕ × ℕ) × (ℕ × ℕ)) :=
  q.findTeams req.bracketId (q.fitsRating (arenaRating - req.maxRatingDifference)
    (toU32 (arenaRating + req.maxRatingDifference)) (toU32 (req.now - req.ratingDiscardTimer)))

/-- The rating of a team is in the range around a rating. -/
def InRange (q : BattlegroundQueue) (req : QueueUpdate) (arenaRating g : ℕ) : Prop :=
  arenaRating - req.maxRatingDifference ≤ (q.info g).arenaMatchmakerRating ∧
    (q.info g).arenaMatchmakerRating ≤ toU32 (arenaRating + req.maxRatingDifference)

/-- A group has been queued for longer than a time. -/
def QueuedLonger (q : BattlegroundQueue) (now timer g : ℕ) : Prop :=
  timer < now - (q.info g).joinTime

/-- No group that is large enough is the first one of a premade queue and not invited, or there is a
premade match. -/
def PremadesStay (q : BattlegroundQueue) (bracket : BracketId) (minPlayersPerTeam : ℕ) : Prop :=
  (∀ team, ∃ g ∈ q.queuedGroups (bracket, .premade team), q.isInvited g = false) ∨
    ∀ team g, (q.queuedGroups (bracket, .premade team)).head? = some g → q.isInvited g = false →
      q.size g < minPlayersPerTeam

/-- The rated teams of a faction that are not invited. -/
def uninvited (q : BattlegroundQueue) (bracket : BracketId) (team : Team) : List ℕ :=
  (q.queuedGroups (bracket, .premade team)).filter fun g => !q.isInvited g

/-- Of two teams of one faction, the first one and the next one of another arena team. -/
def nextTeam (q : BattlegroundQueue) (g : ℕ) (rest : List ℕ) : Option ℕ :=
  rest.find? fun g' => decide ((q.info g).arenaTeamId ≠ (q.info g').arenaTeamId)

/-- The first teams that are not invited have ratings in the range. -/
def RatingsMeet (q : BattlegroundQueue) (req : QueueUpdate) (arenaRating : ℕ) : Prop :=
  match q.uninvited req.bracketId .alliance, q.uninvited req.bracketId .horde with
  | g :: _, g' :: _ => q.InRange req arenaRating g ∧ q.InRange req arenaRating g'
  | g :: rest, [] | [], g :: rest => ∀ g', q.nextTeam g rest = some g' →
      q.InRange req arenaRating g ∧ q.InRange req arenaRating g'
  | [], [] => True

/-! ## The match of two rated teams -/

/-- The first group that fits, with its position. -/
theorem find?_zipIdx (p : ℕ → Bool) (l : List ℕ) (n : ℕ) :
    ((l.zipIdx n).find? fun itr => p itr.1).map Prod.fst = l.find? p := by
  induction l generalizing n with
  | nil => rfl
  | cons g l ih =>
    rw [zipIdx_cons, List.find?_cons, List.find?_cons]
    cases p g with
    | true => rfl
    | false => exact ih (n + 1)

/-- The first group that fits is the first one that is left of the queue, and the next one of
another arena team is the next one among what is left. -/
theorem find?_drop_zipIdx (q : BattlegroundQueue) {fits : ℕ → Bool} {l : List ℕ} {itr : ℕ × ℕ}
    (h : l.zipIdx.find? (fun itr => fits itr.1) = some itr) :
    ∃ rest, l.filter fits = itr.1 :: rest ∧
      ((l.zipIdx.drop itr.2).find? fun itr3 =>
          fits itr3.1 && decide ((q.info itr.1).arenaTeamId ≠ (q.info itr3.1).arenaTeamId)).map
        Prod.fst = q.nextTeam itr.1 rest := by
  obtain ⟨hfits, xs, ys, hsplit, hxs⟩ := List.find?_eq_some_iff_append.1 h
  -- the queue in front of the group and behind it
  obtain ⟨as, bs, rfl, has, hbs⟩ := zipIdx_eq_append_iff.1 hsplit
  obtain ⟨g, rest, rfl, rfl, rfl⟩ := zipIdx_eq_cons_iff.1 hbs.symm
  subst has
  have hskip : as.filter fits = [] := by
    refine filter_eq_nil_iff.2 fun g' hg' => ?_
    obtain ⟨n, hn⟩ := mem_iff_getElem?.1 hg'
    have hnot := hxs (g', n) (mem_zipIdx_iff_getElem?.2 hn)
    simpa using hnot
  have hdrop : (as ++ g :: rest).zipIdx.drop (0 + as.length) =
      (g, 0 + as.length) :: rest.zipIdx (0 + as.length + 1) := by
    have hlen : 0 + as.length = as.zipIdx.length := by rw [length_zipIdx, Nat.zero_add]
    rw [zipIdx_append, zipIdx_cons]
    exact drop_left' hlen.symm
  refine ⟨rest.filter fits, ?_, ?_⟩
  · rw [filter_append, hskip, nil_append, filter_cons_of_pos hfits]
  · have hself : (fits g && decide ((q.info g).arenaTeamId ≠ (q.info g).arenaTeamId)) = false := by
      simp
    rw [hdrop, List.find?_cons]
    simp only [hself]
    rw [find?_zipIdx fun g' => fits g' && decide ((q.info g).arenaTeamId ≠ (q.info g').arenaTeamId),
      nextTeam, List.find?_filter]
    simp only [Bool.decide_and, Bool.decide_eq_true]

/-- The teams that are found, in terms of the groups that fit. -/
theorem findTeams_eq (q : BattlegroundQueue) (bracket : BracketId) (fits : ℕ → Bool) :
    (q.findTeams bracket fits).map (fun teams => (teams.1.1, teams.2.1)) =
      match (q.queuedGroups (bracket, .premade .alliance)).filter fits,
        (q.queuedGroups (bracket, .premade .horde)).filter fits with
      | g :: _, g' :: _ => some (g, g')
      | g :: rest, [] | [], g :: rest => (q.nextTeam g rest).map fun g' => (g, g')
      | [], [] => none := by
  have hnone : ∀ {l : List ℕ}, l.zipIdx.find? (fun itr => fits itr.1) = none →
      l.filter fits = [] := by
    intro l h
    have hfind := find?_zipIdx fits l 0
    rw [h, map_none] at hfind
    exact filter_eq_nil_iff.2 (List.find?_eq_none.1 hfind.symm)
  rw [findTeams]
  dsimp only
  cases hali : (q.queuedGroups (bracket, .premade .alliance)).zipIdx.find?
      fun itr => fits itr.1 with
  | none =>
    rw [hnone hali]
    cases hhorde : (q.queuedGroups (bracket, .premade .horde)).zipIdx.find?
        fun itr => fits itr.1 with
    | none =>
      rw [hnone hhorde]
      rfl
    | some itr =>
      obtain ⟨rest, hfilter, hnext⟩ := q.find?_drop_zipIdx hhorde
      rw [hfilter]
      dsimp only
      rw [← hnext, Option.map_map, Option.map_map]
      rfl
  | some itr =>
    obtain ⟨rest, hfilter, hnext⟩ := q.find?_drop_zipIdx hali
    rw [hfilter]
    cases hhorde : (q.queuedGroups (bracket, .premade .horde)).zipIdx.find?
        fun itr => fits itr.1 with
    | none =>
      rw [hnone hhorde]
      dsimp only
      rw [← hnext, Option.map_map, Option.map_map]
      rfl
    | some itr' =>
      obtain ⟨rest', hfilter', -⟩ := q.find?_drop_zipIdx hhorde
      rw [hfilter']
      rfl

/-- The teams that are found fit. -/
theorem mem_of_findTeams {q : BattlegroundQueue} {bracket : BracketId} {fits : ℕ → Bool}
    {aTeam hTeam : ℕ × ℕ} (hfound : q.findTeams bracket fits = some (aTeam, hTeam)) {g : ℕ}
    (hg : g ∈ [aTeam.1, hTeam.1]) :
    ∃ team, g ∈ (q.queuedGroups (bracket, .premade team)).filter fits := by
  have hnext : ∀ {g1 g2 : ℕ} {l : List ℕ}, q.nextTeam g1 l = some g2 → g2 ∈ l := fun h =>
    mem_of_find?_eq_some h
  have hteams := q.findTeams_eq bracket fits
  rw [hfound, map_some] at hteams
  have hpair : g = aTeam.1 ∨ g = hTeam.1 := by simpa using hg
  split at hteams
  next g1 l1 g2 l2 h1 h2 =>
    cases hteams
    rcases hpair with rfl | rfl
    · exact ⟨.alliance, h1 ▸ mem_cons_self⟩
    · exact ⟨.horde, h2 ▸ mem_cons_self⟩
  next g1 l1 h1 _ =>
    obtain ⟨g2, hfind, heq⟩ := map_eq_some_iff.1 hteams.symm
    cases heq
    rcases hpair with rfl | rfl
    · exact ⟨.alliance, h1 ▸ mem_cons_self⟩
    · exact ⟨.alliance, h1 ▸ mem_cons_of_mem _ (hnext hfind)⟩
  next g1 l1 _ h1 =>
    obtain ⟨g2, hfind, heq⟩ := map_eq_some_iff.1 hteams.symm
    cases heq
    rcases hpair with rfl | rfl
    · exact ⟨.horde, h1 ▸ mem_cons_self⟩
    · exact ⟨.horde, h1 ▸ mem_cons_of_mem _ (hnext hfind)⟩
  next => cases hteams

/-! ## Times that wrap -/

/-- A time of joining is before the difference of the words if the group has been queued for longer
than the timer, or the server has not run for the timer yet. -/
theorem lt_toU32_sub_iff {now timer joinTime : ℕ} (hnow : now < 2 ^ 32) (htimer : timer < 2 ^ 32)
    (hjoin : joinTime ≤ now) :
    joinTime < toU32 (now - timer) ↔ now < timer ∨ timer < now - joinTime := by
  unfold toU32
  omega

/-! ## Premade groups -/

variable (q : BattlegroundQueue) (bracket : BracketId) (timeBefore minPlayersPerTeam : ℕ)

theorem moveToNormal_groups (team : Team) :
    (q.moveToNormal bracket timeBefore minPlayersPerTeam team).groups = q.groups := by
  rw [moveToNormal]
  split
  · rfl
  · split_ifs <;> rfl

/-- The queues of the other faction stay. -/
theorem moveToNormal_other {team : Team} {i : QueueIndex} (hi : i.2.team ≠ team) :
    (q.moveToNormal bracket timeBefore minPlayersPerTeam team).queuedGroups i =
      q.queuedGroups i := by
  have hnormal : i ≠ (bracket, .normal team) := by
    rintro rfl
    exact hi rfl
  have hpremade : i ≠ (bracket, .premade team) := by
    rintro rfl
    exact hi rfl
  rw [moveToNormal]
  split
  · rfl
  · split_ifs
    · simp only [setQueue, Function.update_of_ne hpremade, Function.update_of_ne hnormal]
    · rfl

/-- The group that is moved. -/
theorem movesToNormal_moveToNormal_iff {team : Team} {g : ℕ} :
    MovesToNormal q (q.moveToNormal bracket timeBefore minPlayersPerTeam team) bracket team g ↔
      (q.queuedGroups (bracket, .premade team)).head? = some g ∧ q.isInvited g = false ∧
        ((q.info g).joinTime < timeBefore ∨ q.size g < minPlayersPerTeam) := by
  have hne : ((bracket, .normal team) : QueueIndex) ≠ (bracket, .premade team) := by simp
  have hstay : q.queuedGroups (bracket, .normal team) ≠
      g :: q.queuedGroups (bracket, .normal team) := by
    intro h
    have hlen := congrArg List.length h
    rw [length_cons] at hlen
    omega
  rw [MovesToNormal, moveToNormal]
  split
  next hnil =>
    rw [hnil]
    exact iff_of_false hstay fun h => nomatch h.1
  next g' rest hcons =>
    rw [hcons, List.head?_cons, some.injEq]
    split_ifs with hmove
    · simp only [setQueue, Function.update_of_ne hne, Function.update_self, List.cons.injEq,
        and_true]
      constructor
      · rintro rfl
        simpa using hmove
      · exact fun h => h.1
    · refine iff_of_false hstay ?_
      rintro ⟨rfl, hinvited, hcause⟩
      refine hmove ?_
      simpa [hinvited] using hcause

/-- The groups that `CheckPremadeMatch` moves. -/
theorem movesToNormal_iff (maxPlayersPerTeam : ℕ) (pools : SelectionPools) {team : Team} {g : ℕ} :
    MovesToNormal q (q.checkPremadeMatch bracket timeBefore minPlayersPerTeam maxPlayersPerTeam
        pools).1 bracket team g ↔
      (¬∀ team, ∃ g ∈ q.queuedGroups (bracket, .premade team), q.isInvited g = false) ∧
        (q.queuedGroups (bracket, .premade team)).head? = some g ∧ q.isInvited g = false ∧
        ((q.info g).joinTime < timeBefore ∨ q.size g < minPlayersPerTeam) := by
  have hgroup : ∀ team, ((q.queuedGroups (bracket, .premade team)).find? fun g =>
      !q.isInvited g).isSome ↔
        ∃ g ∈ q.queuedGroups (bracket, .premade team), q.isInvited g = false := by
    intro team
    simp [List.find?_isSome]
  have hstay : ∀ {q' : BattlegroundQueue}, q'.queuedGroups (bracket, .normal team) =
      q.queuedGroups (bracket, .normal team) → ¬MovesToNormal q q' bracket team g := by
    intro q' hq' h
    have hlen := congrArg List.length (hq'.symm.trans h)
    rw [length_cons] at hlen
    omega
  have hall : (∀ team, ∃ g ∈ q.queuedGroups (bracket, .premade team), q.isInvited g = false) ↔
      ((q.queuedGroups (bracket, .premade .alliance)).find? fun g => !q.isInvited g).isSome ∧
        ((q.queuedGroups (bracket, .premade .horde)).find? fun g => !q.isInvited g).isSome := by
    rw [hgroup, hgroup]
    exact ⟨fun h => ⟨h .alliance, h .horde⟩, fun h team => by cases team; exacts [h.1, h.2]⟩
  rw [hall, checkPremadeMatch]
  dsimp only
  split
  next g1 g2 hali hhorde =>
    rw [hali, hhorde]
    exact iff_of_false (hstay rfl) fun h => h.1 ⟨rfl, rfl⟩
  next hnot =>
    have hfail : ¬(((q.queuedGroups (bracket, .premade .alliance)).find? fun g =>
        !q.isInvited g).isSome ∧
          ((q.queuedGroups (bracket, .premade .horde)).find? fun g => !q.isInvited g).isSome) := by
      rintro ⟨hali, hhorde⟩
      obtain ⟨g1, h1⟩ := isSome_iff_exists.1 hali
      obtain ⟨g2, h2⟩ := isSome_iff_exists.1 hhorde
      exact hnot g1 g2 h1 h2
    rw [and_iff_right hfail]
    set q1 := q.moveToNormal bracket timeBefore minPlayersPerTeam .alliance with hq1
    cases team with
    | alliance =>
      have hsame : (q1.moveToNormal bracket timeBefore minPlayersPerTeam .horde).queuedGroups
          (bracket, .normal .alliance) = q1.queuedGroups (bracket, .normal .alliance) :=
        q1.moveToNormal_other bracket timeBefore minPlayersPerTeam nofun
      rw [MovesToNormal, hsame]
      exact q.movesToNormal_moveToNormal_iff bracket timeBefore minPlayersPerTeam
    | horde =>
      have hsame : ∀ i : QueueIndex, i.2.team = .horde → q1.queuedGroups i = q.queuedGroups i :=
        fun i hi => q.moveToNormal_other bracket timeBefore minPlayersPerTeam (by rw [hi]; nofun)
      have hnormal := hsame (bracket, .normal .horde) rfl
      have hpremade := hsame (bracket, .premade .horde) rfl
      have hgroups := q.moveToNormal_groups bracket timeBefore minPlayersPerTeam .alliance
      have hmoves : MovesToNormal q1 (q1.moveToNormal bracket timeBefore minPlayersPerTeam .horde)
          bracket .horde g ↔ _ :=
        q1.movesToNormal_moveToNormal_iff bracket timeBefore minPlayersPerTeam
      have hinfo : q1.info = q.info := by
        funext g
        rw [info, info, hgroups]
      rw [MovesToNormal, hnormal, hpremade, isInvited, size, hinfo] at hmoves
      exact hmoves

/-! ## Waiting -/

variable {q} {req : QueueUpdate}

/-- A team may play if it has a rating in the range, or has been queued for longer than the timer,
or the server has not run for the timer yet. -/
theorem fitsRating_iff {arenaRating g : ℕ} (hnow : req.now < 2 ^ 32)
    (hdiscard : req.ratingDiscardTimer < 2 ^ 32) (hjoin : (q.info g).joinTime ≤ req.now) :
    q.fitsRating (arenaRating - req.maxRatingDifference)
        (toU32 (arenaRating + req.maxRatingDifference)) (toU32 (req.now - req.ratingDiscardTimer))
        g = true ↔
      q.isInvited g = false ∧ (q.InRange req arenaRating g ∨ req.now < req.ratingDiscardTimer ∨
        q.QueuedLonger req.now req.ratingDiscardTimer g) := by
  have htime := lt_toU32_sub_iff hnow hdiscard hjoin
  rw [fitsRating, QueuedLonger, ← htime, InRange]
  simp

/-- Of rated teams, the paired ones have ratings in the range or have been queued for longer than
the timer, if and only if the server has run for the timer or the first teams that are not invited
have ratings in the range. -/
theorem ratedTeams_iff (arenaRating : ℕ) (hnow : req.now < 2 ^ 32)
    (hdiscard : req.ratingDiscardTimer < 2 ^ 32)
    (hjoin : ∀ team, ∀ g ∈ q.queuedGroups (req.bracketId, .premade team),
      (q.info g).joinTime ≤ req.now) :
    (∀ aTeam hTeam, q.ratedTeams req arenaRating = some (aTeam, hTeam) →
        ∀ g ∈ [aTeam.1, hTeam.1], q.InRange req arenaRating g ∨
          q.QueuedLonger req.now req.ratingDiscardTimer g) ↔
      req.ratingDiscardTimer ≤ req.now ∨ q.RatingsMeet req arenaRating := by
  have hteams := q.findTeams_eq req.bracketId
    (q.fitsRating (arenaRating - req.maxRatingDifference)
      (toU32 (arenaRating + req.maxRatingDifference)) (toU32 (req.now - req.ratingDiscardTimer)))
  rcases Nat.lt_or_ge req.now req.ratingDiscardTimer with hlt | hge
  · -- every team that is not invited may play, and none has been queued for longer
    rw [or_iff_right (by omega)]
    have hlong : ∀ g, ¬q.QueuedLonger req.now req.ratingDiscardTimer g := by
      intro g
      unfold QueuedLonger
      omega
    have hfilter : ∀ team, (q.queuedGroups (req.bracketId, .premade team)).filter
        (q.fitsRating (arenaRating - req.maxRatingDifference)
          (toU32 (arenaRating + req.maxRatingDifference))
          (toU32 (req.now - req.ratingDiscardTimer))) =
        q.uninvited req.bracketId team := by
      intro team
      refine filter_congr fun g hg => ?_
      rw [Bool.eq_iff_iff, fitsRating_iff hnow hdiscard (hjoin team g hg)]
      simp [hlt]
    rw [hfilter, hfilter] at hteams
    have hpairs : (∀ aTeam hTeam, q.ratedTeams req arenaRating = some (aTeam, hTeam) →
        ∀ g ∈ [aTeam.1, hTeam.1], q.InRange req arenaRating g ∨
          q.QueuedLonger req.now req.ratingDiscardTimer g) ↔
        ∀ g g', (q.ratedTeams req arenaRating).map (fun teams => (teams.1.1, teams.2.1)) =
          some (g, g') → q.InRange req arenaRating g ∧ q.InRange req arenaRating g' := by
      cases q.ratedTeams req arenaRating with
      | none => simp
      | some teams =>
        obtain ⟨aTeam, hTeam⟩ := teams
        simp [hlong]
    have hnext : ∀ (g : ℕ) (rest : List ℕ), (∀ g1 g2, (q.nextTeam g rest).map (fun g' => (g, g')) =
          some (g1, g2) → q.InRange req arenaRating g1 ∧ q.InRange req arenaRating g2) ↔
        ∀ g', q.nextTeam g rest = some g' →
          q.InRange req arenaRating g ∧ q.InRange req arenaRating g' := by
      intro g rest
      cases q.nextTeam g rest <;> simp
    rw [hpairs, ratedTeams, hteams, RatingsMeet]
    split
    · simp
    · exact hnext _ _
    · exact hnext _ _
    · simp
  · refine iff_of_true (fun aTeam hTeam hfound g hg => ?_) (.inl hge)
    obtain ⟨team, hmem⟩ := mem_of_findTeams hfound hg
    obtain ⟨hqueued, hfits⟩ := mem_filter.1 hmem
    obtain ⟨-, hrange | hlt | hlong⟩ :=
      (fitsRating_iff hnow hdiscard (hjoin team g hqueued)).1 hfits
    · exact .inl hrange
    · omega
    · exact .inr hlong

/-- Of premade groups, the ones that are moved are too small or have been queued for longer than the
timer, if and only if the server has run for the timer or no others are first. -/
theorem premades_iff (minPlayersPerTeam maxPlayersPerTeam : ℕ) (pools : SelectionPools)
    (hnow : req.now < 2 ^ 32) (hwait : req.premadeGroupWait < 2 ^ 32)
    (hjoin : ∀ team, ∀ g ∈ q.queuedGroups (req.bracketId, .premade team),
      (q.info g).joinTime ≤ req.now) :
    (∀ team g, MovesToNormal q (q.checkPremadeMatch req.bracketId
          (toU32 (req.now - req.premadeGroupWait)) minPlayersPerTeam maxPlayersPerTeam pools).1
          req.bracketId team g →
        q.size g < minPlayersPerTeam ∨ q.QueuedLonger req.now req.premadeGroupWait g) ↔
      req.premadeGroupWait ≤ req.now ∨ q.PremadesStay req.bracketId minPlayersPerTeam := by
  simp only [movesToNormal_iff]
  have hhead : ∀ {team g}, (q.queuedGroups (req.bracketId, .premade team)).head? = some g →
      ((q.info g).joinTime < toU32 (req.now - req.premadeGroupWait) ↔
        req.now < req.premadeGroupWait ∨ q.QueuedLonger req.now req.premadeGroupWait g) :=
    fun {team g} hg => lt_toU32_sub_iff hnow hwait (hjoin team g (mem_of_mem_head? hg))
  rcases Nat.lt_or_ge req.now req.premadeGroupWait with hlt | hge
  · rw [or_iff_right (by omega), PremadesStay]
    have hlong : ∀ g, ¬q.QueuedLonger req.now req.premadeGroupWait g := by
      intro g
      unfold QueuedLonger
      omega
    constructor
    · intro hall
      refine or_iff_not_imp_left.2 fun hmatch team g hg hinvited => ?_
      exact (hall team g ⟨hmatch, hg, hinvited, .inl ((hhead hg).2 (.inl hlt))⟩).resolve_right
        (hlong g)
    · rintro hstay team g ⟨hmatch, hg, hinvited, -⟩
      exact .inl (hstay.resolve_left hmatch team g hg hinvited)
  · refine iff_of_true ?_ (.inl hge)
    rintro team g ⟨-, hg, -, htime | hsize⟩
    · exact .inr (((hhead hg).1 htime).resolve_left (by omega))
    · exact .inl hsize

/-- What is relaxed after a time needs that time in the queue, for premade groups and for rated
teams, if and only if the server has run for the time or nothing is there that it could be relaxed
for. -/
theorem waiting_iff (q : BattlegroundQueue) (req : QueueUpdate)
    (minPlayersPerTeam maxPlayersPerTeam : ℕ) (pools : SelectionPools)
    (hnow : req.now < 2 ^ 32) (hwait : req.premadeGroupWait < 2 ^ 32)
    (hdiscard : req.ratingDiscardTimer < 2 ^ 32)
    (hjoin : ∀ team, ∀ g ∈ q.queuedGroups (req.bracketId, .premade team),
      (q.info g).joinTime ≤ req.now) :
    ((∀ team g, MovesToNormal q (q.checkPremadeMatch req.bracketId
            (toU32 (req.now - req.premadeGroupWait)) minPlayersPerTeam maxPlayersPerTeam pools).1
            req.bracketId team g →
          q.size g < minPlayersPerTeam ∨ q.QueuedLonger req.now req.premadeGroupWait g) ∧
        ∀ arenaRating, q.frontRating req.bracketId req.arenaRating = some arenaRating →
          ∀ aTeam hTeam, q.ratedTeams req arenaRating = some (aTeam, hTeam) →
            ∀ g ∈ [aTeam.1, hTeam.1], q.InRange req arenaRating g ∨
              q.QueuedLonger req.now req.ratingDiscardTimer g) ↔
      (req.premadeGroupWait ≤ req.now ∨ q.PremadesStay req.bracketId minPlayersPerTeam) ∧
        (req.ratingDiscardTimer ≤ req.now ∨
          ∀ arenaRating, q.frontRating req.bracketId req.arenaRating = some arenaRating →
            q.RatingsMeet req arenaRating) := by
  rw [premades_iff minPlayersPerTeam maxPlayersPerTeam pools hnow hwait hjoin]
  refine and_congr_right fun _ => ?_
  simp only [ratedTeams_iff _ hnow hdiscard hjoin]
  constructor
  · exact fun h => or_iff_not_imp_left.2 fun hearly arenaRating hfront =>
      (h arenaRating hfront).resolve_left hearly
  · exact fun h arenaRating hfront => h.imp_right fun hmeet => hmeet arenaRating hfront

/-! ## After the start -/

/-- A premade group of ten players, and in another bracket a rated team of each faction. All have
joined in the first minute of the server. -/
def startedQueue : BattlegroundQueue where
  groups
    | 0 => some { players := Finset.range 10, joinTime := 50000 }
    | 1 => some { players := {20, 21}, isRated := true, arenaType := 2, arenaTeamId := 1,
                  joinTime := 40000, arenaMatchmakerRating := 1500 }
    | 2 => some { players := {30, 31}, team := .horde, isRated := true, arenaType := 2,
                  arenaTeamId := 2, joinTime := 50000, arenaMatchmakerRating := 2500 }
    | _ => none
  nextGroup := 3
  queuedGroups i :=
    if i = (0, .premade .alliance) then [0]
    else if i = (1, .premade .alliance) then [1]
    else if i = (1, .premade .horde) then [2]
    else []

/-- An update with the default times of 30 and 10 minutes. -/
def updateAt (now : ℕ) (bracket : BracketId) : QueueUpdate where
  bgTypeId := 0
  bracketId := bracket
  arenaType := 2
  isRated := true
  arenaRating := 0
  now := now
  freeSlotQueue := []
  bgTemplate := none
  bracketEntry := true
  invitationType := 0
  premadeGroupWait := 1800000
  isTesting := false
  isArenaTesting := false
  maxRatingDifference := 150
  ratingDiscardTimer := 600000
  premadeBattleground := none
  newBattleground := none
  beyond := []
  back := 0

/-- Half an hour after the start. -/
theorem waiting_iff_halfHour :
    ((∀ team g, MovesToNormal startedQueue (startedQueue.checkPremadeMatch 1
            (toU32 ((1800000 : ℕ) - (1800000 : ℕ))) 2 2 fun _ => {}).1 1 team g →
          startedQueue.size g < 2 ∨ startedQueue.QueuedLonger 1800000 1800000 g) ∧
        ∀ arenaRating, startedQueue.frontRating 1 0 = some arenaRating →
          ∀ aTeam hTeam, startedQueue.ratedTeams (updateAt 1800000 1) arenaRating =
              some (aTeam, hTeam) →
            ∀ g ∈ [aTeam.1, hTeam.1], startedQueue.InRange (updateAt 1800000 1) arenaRating g ∨
              startedQueue.QueuedLonger 1800000 600000 g) ↔
      (1800000 ≤ 1800000 ∨ startedQueue.PremadesStay 1 2) ∧
        (600000 ≤ 1800000 ∨ ∀ arenaRating, startedQueue.frontRating 1 0 = some arenaRating →
          startedQueue.RatingsMeet (updateAt 1800000 1) arenaRating) :=
  waiting_iff startedQueue (updateAt 1800000 1) 2 2 (fun _ => {}) (by decide) (by decide)
    (by decide) fun team => by cases team <;> decide

/-- One minute after the start the premade group is moved, which is large enough and has been queued
for ten seconds, and the teams are paired, of which one has a rating out of the range and has been
queued for ten seconds. -/
theorem not_waited :
    (MovesToNormal startedQueue (startedQueue.checkPremadeMatch 0
          (toU32 ((60000 : ℕ) - (1800000 : ℕ))) 10 15 fun _ => {}).1 0 .alliance 0 ∧
        ¬(startedQueue.size 0 < 10 ∨ startedQueue.QueuedLonger 60000 1800000 0)) ∧
      startedQueue.frontRating 1 0 = some 1500 ∧
        startedQueue.ratedTeams (updateAt 60000 1) 1500 = some ((1, 0), (2, 0)) ∧
        ¬(startedQueue.InRange (updateAt 60000 1) 1500 2 ∨
          startedQueue.QueuedLonger 60000 600000 2) := by
  refine ⟨⟨by unfold MovesToNormal; decide, ?_⟩, by decide, by decide, ?_⟩
  · unfold QueuedLonger
    decide
  · unfold QueuedLonger InRange
    decide

end BattlegroundQueue

end MistyWorld
