import MistyWorld.LfgAgreement

/-!
# The search for a group

`FindNewGroups` puts queued guids to a new one, and when a list does not agree it takes the last
guid back. But the calls share the list of the guids that are left, so a guid that was taken is not
tried again without another one. So the search goes once through the queue, and keeps each guid that
agrees with those it has (`search`, `findNewGroups_eq`). The compatibilities it stores on the way do
not change this, even where a guid is queued twice (`Known`).

A new guid finds a group exactly when it is one, or when a guid of the queue completes those that
were kept before it (`search_matched_iff`). There may be a group in the queue that is not found.
-/

open List

namespace MistyWorld

namespace LfgQueue

/-! ## One pass -/

/-- The search of a list through the rest of the queue. -/
def search (env : LfgView) : List ℕ → List ℕ → LfgQueue → LfgCompatibility × LfgQueue
  | _, [], s => (.withLessPlayers, s)
  | check, guid :: all, s =>
    let found := lookCompatibility env (check ++ [guid]) s
    if found.1 = .matched then found
    else if found.1 = .withLessPlayers then search env (check ++ [guid]) all found.2
    else search env check all found.2

variable {env : LfgView} {s s' : LfgQueue} {check all queue : List ℕ} {guid guid' : ℕ}

theorem search_fst (env : LfgView) : ∀ (all check : List ℕ) (s : LfgQueue),
    (search env check all s).1 = .matched ∨ (search env check all s).1 = .withLessPlayers
  | [], _, _ => .inr rfl
  | guid :: all, check, s => by
    rw [search]
    split_ifs with hmatch
    · exact .inl hmatch
    · exact search_fst env all _ _
    · exact search_fst env all _ _

/-- The loop of `FindNewGroups` goes once through the list. What it calls leaves no guid behind. -/
theorem matchLoop_eq (env : LfgView) (n : ℕ) : ∀ (fuel rounds : ℕ) (check all : List ℕ)
    (s : LfgQueue), all.length = n → n ≤ fuel → n ≤ rounds →
      ∃ left, matchLoop (findNewGroups env fuel) .withLessPlayers check rounds all s =
          some ((search env check all s).1, left, (search env check all s).2) ∧
        ((search env check all s).1 ≠ .matched → left = []) := by
  induction n using Nat.strong_induction_on with
  | _ n ih =>
    intro fuel rounds check all s hall hfuel hrounds
    cases all with
    | nil => exact ⟨[], by cases rounds <;> rfl, fun _ => rfl⟩
    | cons guid all =>
      rw [length_cons] at hall
      obtain ⟨fuel, rfl⟩ : ∃ m, fuel = m + 1 := ⟨fuel - 1, by omega⟩
      obtain ⟨rounds, rfl⟩ : ∃ m, rounds = m + 1 := ⟨rounds - 1, by omega⟩
      rw [matchLoop, findNewGroups, search]
      generalize lookCompatibility env (check ++ [guid]) s = found
      by_cases hless : found.1 = .withLessPlayers
      · obtain ⟨left, hloop, hleft⟩ := ih all.length (by omega) fuel all.length (check ++ [guid])
          all found.2 rfl (by omega) (le_refl _)
        rw [if_neg (not_not.2 hless), hless, if_neg (by decide), if_pos rfl, hloop]
        dsimp only
        by_cases hmatch : (search env (check ++ [guid]) all found.2).1 = .matched
        · rw [if_pos hmatch, hmatch]
          exact ⟨left, rfl, fun h => absurd rfl h⟩
        · rw [if_neg hmatch, hleft hmatch,
            (search_fst env all (check ++ [guid]) found.2).resolve_left hmatch]
          exact ⟨[], by cases rounds <;> rfl, fun _ => rfl⟩
      · rw [if_pos hless]
        dsimp only
        by_cases hmatch : found.1 = .matched
        · rw [if_pos hmatch, if_pos hmatch, hmatch]
          exact ⟨all, rfl, fun h => absurd rfl h⟩
        · rw [if_neg hmatch, if_neg hmatch, if_neg hless]
          exact ih all.length (by omega) _ _ _ all _ rfl (by omega) (by omega)

/-- `FindNewGroups` ends, and is one pass through the list. -/
theorem findNewGroups_eq (env : LfgView) (check : List ℕ) (s : LfgQueue) {fuel : ℕ}
    (hfuel : all.length < fuel) :
    ((lookCompatibility env check s).1 ≠ .withLessPlayers → ∃ left,
      findNewGroups env fuel check all s =
        some ((lookCompatibility env check s).1, left, (lookCompatibility env check s).2)) ∧
    ((lookCompatibility env check s).1 = .withLessPlayers → ∃ left,
      findNewGroups env fuel check all s =
        some ((search env check all (lookCompatibility env check s).2).1, left,
          (search env check all (lookCompatibility env check s).2).2)) := by
  obtain ⟨fuel, rfl⟩ : ∃ m, fuel = m + 1 := ⟨fuel - 1, by omega⟩
  rw [findNewGroups]
  generalize lookCompatibility env check s = found
  refine ⟨fun hless => ⟨all, by rw [if_pos hless]⟩, fun hless => ?_⟩
  obtain ⟨left, hloop, -⟩ :=
    matchLoop_eq env _ fuel all.length check all found.2 rfl (by omega) (le_refl _)
  exact ⟨left, by rw [if_neg (not_not.2 hless), hless, hloop]⟩

/-! ## What is stored on the way -/

/-- The guids of a list agree, and there is room for more players. -/
def Fits (env : LfgView) (s : LfgQueue) (check : List ℕ) : Prop :=
  Agree env s check ∧ (s.players check).length ≠ maxGroupSize

/-- The guids of a list agree and make a full group. -/
def Full (env : LfgView) (s : LfgQueue) (check : List ℕ) : Prop :=
  Agree env s check ∧ (s.players check).length = maxGroupSize

theorem SameData.fits (h : SameData s s') : Fits env s' check ↔ Fits env s check := by
  rw [Fits, Fits, h.agree, h.players]

theorem SameData.full (h : SameData s s') : Full env s' check ↔ Full env s check := by
  rw [Full, Full, h.agree, h.players]

/-- A list has been checked and has room. All other keys are those of lists with one more guid at
most, and with one more they are keys of lists that do not agree. -/
structure Known (env : LfgView) (s : LfgQueue) (check : List ℕ) : Prop where
  self : s.getCompatibles (concatenateGuids check) = .withLessPlayers
  near : ∀ key, s.getCompatibles key ≠ .pending → ∃ check' guid, check' ≠ [] ∧
    key = concatenateGuids check' ∧ ∀ g ∈ check', g ∈ check ∨ g = guid
  tried : ∀ guid, guid ∉ check →
    s.getCompatibles (concatenateGuids (check ++ [guid])) ≠ .pending →
      Incompatible (s.getCompatibles (concatenateGuids (check ++ [guid]))) ∧
        ¬ Agree env s (check ++ [guid])

theorem append_ne_nil (check : List ℕ) (guid : ℕ) : check ++ [guid] ≠ [] := by
  simp

/-- A guid that is taken again changes no key. -/
theorem concatenateGuids_of_mem {rest : List ℕ} (h : guid ∈ check) :
    concatenateGuids (check ++ guid :: rest) = concatenateGuids (check ++ rest) := by
  have hset : guidSet (check ++ guid :: rest) = guidSet (check ++ rest) := by
    refine guidSet_eq_iff.2 fun g => ?_
    simp only [mem_append, mem_cons]
    constructor
    · rintro (hg | rfl | hg)
      · exact .inl hg
      · exact .inl h
      · exact .inr hg
    · rintro (hg | hg)
      · exact .inl hg
      · exact .inr (.inr hg)
  rw [concatenateGuids, hset, concatenateGuids]

theorem Known.again (h : Known env s check) (hguid : guid ∈ check) :
    Known env s (check ++ [guid]) where
  self := by
    rw [concatenateGuids_of_mem hguid, append_nil]
    exact h.self
  near key hkey := by
    obtain ⟨check', g, hne, heq, hall⟩ := h.near key hkey
    exact ⟨check', g, hne, heq, fun g' hg' => (hall g' hg').imp_left (mem_append_left _)⟩
  tried guid' hguid' hkey := by
    rw [append_assoc, singleton_append] at hkey ⊢
    rw [concatenateGuids_of_mem hguid] at hkey ⊢
    obtain ⟨hincompatible, hnot⟩ :=
      h.tried guid' (fun hmem => hguid' (mem_append_left _ hmem)) hkey
    refine ⟨hincompatible, fun hagree => hnot (hagree.sublist ?_)⟩
    exact (List.Sublist.refl check).append (sublist_cons_self guid [guid'])

/-- The ends of a list have its last guid. -/
theorem mem_of_suffix {rest : List ℕ} (h : rest <:+ check ++ [guid]) (hne : rest ≠ []) :
    guid ∈ rest := by
  obtain ⟨start, heq⟩ := h
  have hlast := congrArg List.getLast? heq
  rw [List.getLast?_append_of_ne_nil _ hne, List.getLast?_concat] at hlast
  exact mem_of_getLast? hlast

/-- A list that was checked and has room is known. -/
theorem Known.extend {r : LfgCompatibility × LfgQueue} (h : Known env s check)
    (hchecked : Checked env s (check ++ [guid]) r) (hguid : guid ∉ check)
    (hless : r.1 = .withLessPlayers) : Known env r.2 (check ++ [guid]) where
  self := by rw [hchecked.stored, hless]
  near key hkey := by
    by_cases hself : key = concatenateGuids (check ++ [guid])
    · exact ⟨check ++ [guid], guid, append_ne_nil check guid, hself, fun g hg => .inl hg⟩
    · rcases hchecked.others key hself with heq | ⟨rest, hsuffix, hne, heq⟩
      · rw [heq] at hkey
        obtain ⟨check', g, hne, heq', hall⟩ := h.near key hkey
        exact ⟨check', g, hne, heq', fun g' hg' => (hall g' hg').imp_left (mem_append_left _)⟩
      · exact ⟨rest, guid, hne, heq, fun g hg => .inl (hsuffix.subset hg)⟩
  tried guid' hguid' hkey := by
    have hmem : ∀ {check' : List ℕ}, check' ≠ [] →
        concatenateGuids (check ++ [guid] ++ [guid']) = concatenateGuids check' →
          ∀ g, g ∈ check ++ [guid] ++ [guid'] ↔ g ∈ check' :=
      fun hne heq => (concatenateGuids_eq_iff (append_ne_nil _ _) hne).1 heq
    have hself : concatenateGuids (check ++ [guid] ++ [guid']) ≠
        concatenateGuids (check ++ [guid]) := fun heq =>
      hguid' ((hmem (append_ne_nil _ _) heq guid').1 (by simp))
    rcases hchecked.others _ hself with heq | ⟨rest, hsuffix, hne, heq⟩
    · rw [heq] at hkey
      obtain ⟨check', g, hne, heq', hall⟩ := h.near _ hkey
      have hguid1 := hall guid ((hmem hne heq' guid).1 (by simp))
      have hguid2 := hall guid' ((hmem hne heq' guid').1 (by simp))
      simp only [mem_append, mem_singleton, not_or] at hguid'
      exact (hguid'.2 ((hguid2.resolve_left hguid'.1).trans
        (hguid1.resolve_left hguid).symm)).elim
    · exact (hguid' (hsuffix.subset ((hmem hne heq guid').1 (by simp)))).elim

/-- A list that does not agree is not known. -/
theorem Known.reject {r : LfgCompatibility × LfgQueue} (h : Known env s check)
    (hchecked : Checked env s (check ++ [guid]) r) (hne : check ≠ []) (hguid : guid ∉ check)
    (hnot : ¬ Agree env s (check ++ [guid])) : Known env r.2 check where
  self := by
    have hself : concatenateGuids check ≠ concatenateGuids (check ++ [guid]) := fun heq =>
      hguid (((concatenateGuids_eq_iff hne (append_ne_nil _ _)).1 heq guid).2 (by simp))
    rcases hchecked.others _ hself with heq | ⟨rest, hsuffix, hrest, heq⟩
    · rw [heq, h.self]
    · exact (hguid (((concatenateGuids_eq_iff hne hrest).1 heq guid).2
        (mem_of_suffix hsuffix hrest))).elim
  near key hkey := by
    by_cases hself : key = concatenateGuids (check ++ [guid])
    · exact ⟨check ++ [guid], guid, append_ne_nil check guid, hself, fun g hg => by simpa using hg⟩
    · rcases hchecked.others key hself with heq | ⟨rest, hsuffix, hrest, heq⟩
      · rw [heq] at hkey
        exact h.near key hkey
      · exact ⟨rest, guid, hrest, heq, fun g hg => by simpa using hsuffix.subset hg⟩
  tried guid' hguid' hkey := by
    by_cases heq : guid' = guid
    · subst heq
      rw [hchecked.stored]
      exact ⟨hchecked.notAgree hnot, fun hagree => hnot (hchecked.same.agree.1 hagree)⟩
    · have hself : concatenateGuids (check ++ [guid']) ≠ concatenateGuids (check ++ [guid]) :=
        fun hkeys => by
          have hmem := ((concatenateGuids_eq_iff (append_ne_nil _ _) (append_ne_nil _ _)).1 hkeys
            guid').1 (by simp)
          simp only [mem_append, mem_singleton] at hmem
          exact hmem.elim hguid' heq
      rcases hchecked.others _ hself with hkeys | ⟨rest, hsuffix, hrest, hkeys⟩
      · rw [hkeys] at hkey ⊢
        obtain ⟨hincompatible, hnot'⟩ := h.tried guid' hguid' hkey
        exact ⟨hincompatible, fun hagree => hnot' (hchecked.same.agree.1 hagree)⟩
      · have hmem := ((concatenateGuids_eq_iff (append_ne_nil _ _) hrest).1 hkeys guid).2
          (mem_of_suffix hsuffix hrest)
        simp only [mem_append, mem_singleton] at hmem
        exact (hmem.elim hguid (Ne.symm heq)).elim

/-! ## One guid -/

/-- A list with a guid twice does not agree : he has players. -/
theorem not_agree_of_mem (hstored : s.Stored guid) (hguid : guid ∈ check) :
    ¬ Agree env s (check ++ [guid]) := by
  intro h
  obtain ⟨p, hp⟩ := exists_mem_of_ne_nil _ hstored.rolesOf.1
  have hdistinct := h.distinct
  rw [players, flatMap_append, map_append, nodup_append] at hdistinct
  refine hdistinct.2.2 p.1 (mem_map_of_mem (mem_flatMap.2 ⟨guid, hguid, hp⟩)) p.1
    (mem_map_of_mem ?_) rfl
  simpa using hp

/-- What the search does with the next guid. -/
structure Tried (env : LfgView) (s : LfgQueue) (check : List ℕ) (guid : ℕ)
    (found : LfgCompatibility × LfgQueue) : Prop where
  same : SameData s found.2
  full : Full env s (check ++ [guid]) → found.1 = .matched
  fits : guid ∈ check ∨ Fits env s (check ++ [guid]) →
    found.1 = .withLessPlayers ∧ Known env found.2 (check ++ [guid])
  other : guid ∉ check → ¬ Agree env s (check ++ [guid]) →
    found.1 ≠ .matched ∧ found.1 ≠ .withLessPlayers ∧ Known env found.2 check

theorem Incompatible.ne {c : LfgCompatibility} (h : Incompatible c) :
    c ≠ .matched ∧ c ≠ .withLessPlayers ∧ c ≠ .badStates := by
  refine ⟨?_, ?_, ?_⟩ <;>
  · rintro rfl
    exact absurd h.1 (by decide)

theorem lookCompatibility_of_ne {c : LfgCompatibility}
    (hc : s.getCompatibles (concatenateGuids check) = c) (hpending : c ≠ .pending)
    (hbad : c ≠ .badStates) : lookCompatibility env check s = (c, s) := by
  rw [lookCompatibility, hc, if_neg hpending, if_neg fun h => hbad h.1]

theorem lookCompatibility_of_pending (hc : s.getCompatibles (concatenateGuids check) = .pending)
    (hbad : (checkCompatibility env check s).1 ≠ .badStates) :
    lookCompatibility env check s = checkCompatibility env check s := by
  rw [lookCompatibility, hc, if_pos rfl, if_neg fun h => hbad h.1]

theorem tried_lookCompatibility (hknown : Known env s check) (hne : check ≠ [])
    (hstored : ∀ g ∈ check ++ [guid], s.Stored g)
    (hqueued : ∀ g ∈ check ++ [guid], env.isQueued g) :
    Tried env s check guid (lookCompatibility env (check ++ [guid]) s) := by
  by_cases hguid : guid ∈ check
  · have hself : s.getCompatibles (concatenateGuids (check ++ [guid])) = .withLessPlayers := by
      rw [concatenateGuids_of_mem hguid, append_nil, hknown.self]
    rw [lookCompatibility_of_ne hself (by decide) (by decide)]
    exact ⟨SameData.refl s, fun h => (not_agree_of_mem (hstored guid (by simp)) hguid h.1).elim,
      fun _ => ⟨rfl, hknown.again hguid⟩, fun h => (h hguid).elim⟩
  by_cases hpending : s.getCompatibles (concatenateGuids (check ++ [guid])) = .pending
  · by_cases hsize : (check ++ [guid]).length ≤ maxGroupSize
    · have hlen : 1 < (check ++ [guid]).length := by
        have hpos := length_pos_iff.2 hne
        simp only [length_append, length_singleton]
        omega
      have hchecked := checked_checkCompatibility s hstored hqueued hlen hsize
      have hbad : (checkCompatibility env (check ++ [guid]) s).1 ≠ .badStates := by
        by_cases hagree : Agree env s (check ++ [guid])
        · rw [hchecked.agree hagree, agreed]
          split_ifs <;> decide
        · exact (hchecked.notAgree hagree).ne.2.2
      rw [lookCompatibility_of_pending hpending hbad]
      refine ⟨hchecked.same, fun h => ?_, fun h => ?_, fun _ hnot => ?_⟩
      · rw [hchecked.agree h.1, agreed, if_pos h.2]
      · obtain ⟨hagree, hroom⟩ := h.resolve_left hguid
        have hless := hchecked.agree hagree
        rw [agreed, if_neg hroom] at hless
        exact ⟨hless, hknown.extend hchecked hguid hless⟩
      · obtain ⟨hmatched, hless, -⟩ := (hchecked.notAgree hnot).ne
        exact ⟨hmatched, hless, hknown.reject hchecked hne hguid hnot⟩
    · have hcheck : checkCompatibility env (check ++ [guid]) s = (.wrongGroupSize, s) := by
        cases hlist : check ++ [guid] with
        | nil => rfl
        | cons g rest =>
          rw [hlist] at hsize
          rw [checkCompatibility, if_pos (not_le.1 hsize)]
      rw [lookCompatibility_of_pending hpending (by rw [hcheck]; rintro ⟨⟩), hcheck]
      exact ⟨SameData.refl s, fun h => (hsize h.1.size).elim,
        fun h => (hsize (h.resolve_left hguid).1.size).elim,
        fun _ _ => ⟨by rintro ⟨⟩, by rintro ⟨⟩, hknown⟩⟩
  · obtain ⟨hincompatible, hnot⟩ := hknown.tried guid hguid hpending
    obtain ⟨hmatched, hless, hbad⟩ := hincompatible.ne
    rw [lookCompatibility_of_ne rfl hpending hbad]
    exact ⟨SameData.refl s, fun h => (hnot h.1).elim,
      fun h => (hnot (h.resolve_left hguid).1).elim, fun _ _ => ⟨hmatched, hless, hknown⟩⟩

/-! ## The whole queue -/

open Classical in
/-- The guids of a queue that are kept, one after the other, as they fit to those kept before. A
guid that is queued twice is kept again. -/
noncomputable def joined (env : LfgView) (s : LfgQueue) (check queue : List ℕ) : List ℕ :=
  queue.foldl (fun check guid =>
    if guid ∈ check ∨ Fits env s (check ++ [guid]) then check ++ [guid] else check) check

/-- A guid of the queue makes a full group with those kept before. -/
def Completes (env : LfgView) (s : LfgQueue) (check queue : List ℕ) : Prop :=
  ∃ before guid after, queue = before ++ guid :: after ∧
    Full env s (joined env s check before ++ [guid])

theorem joined_cons_of_fits (h : guid ∈ check ∨ Fits env s (check ++ [guid])) :
    joined env s check (guid :: queue) = joined env s (check ++ [guid]) queue := by
  rw [joined, foldl_cons, if_pos h, joined]

theorem joined_cons_of_not (h : ¬ (guid ∈ check ∨ Fits env s (check ++ [guid]))) :
    joined env s check (guid :: queue) = joined env s check queue := by
  rw [joined, foldl_cons, if_neg h, joined]

theorem SameData.joined (h : SameData s s') (check queue : List ℕ) :
    joined env s' check queue = joined env s check queue := by
  rw [LfgQueue.joined, LfgQueue.joined]
  congr 1
  funext check guid
  by_cases hfits : guid ∈ check ∨ Fits env s (check ++ [guid])
  · rw [if_pos hfits, if_pos (hfits.imp_right h.fits.2)]
  · rw [if_neg hfits, if_neg fun hmem => hfits (hmem.imp_right h.fits.1)]

theorem SameData.completes (h : SameData s s') :
    Completes env s' check queue ↔ Completes env s check queue := by
  simp only [Completes, h.full, h.joined]

theorem not_completes_nil : ¬ Completes env s check [] := by
  rintro ⟨before, guid, after, heq, -⟩
  simp at heq

theorem completes_cons : Completes env s check (guid :: queue) ↔
    Full env s (check ++ [guid]) ∨
      ∃ before guid' after, queue = before ++ guid' :: after ∧
        Full env s (joined env s check (guid :: before) ++ [guid']) := by
  constructor
  · rintro ⟨before, guid', after, heq, hfull⟩
    cases before with
    | nil =>
      obtain ⟨rfl, -⟩ := List.cons.inj heq
      exact .inl hfull
    | cons g before =>
      obtain ⟨rfl, hqueue⟩ := List.cons.inj heq
      exact .inr ⟨before, guid', after, hqueue, hfull⟩
  · rintro (hfull | ⟨before, guid', after, rfl, hfull⟩)
    · exact ⟨[], guid, queue, rfl, hfull⟩
    · exact ⟨guid :: before, guid', after, rfl, hfull⟩

/-- The search finds a full group exactly when a guid completes those that are kept before. -/
theorem search_matched_iff (hknown : Known env s check) (hne : check ≠ [])
    (hstored : ∀ g ∈ check ++ queue, s.Stored g) (hqueued : ∀ g ∈ check ++ queue, env.isQueued g) :
    (search env check queue s).1 = .matched ↔ Completes env s check queue := by
  induction queue generalizing check s with
  | nil => exact iff_of_false nofun not_completes_nil
  | cons guid queue ih =>
    have hmore : ∀ {g}, g ∈ check ++ [guid] → g ∈ check ++ guid :: queue := fun hg =>
      (append_cons check guid queue) ▸ mem_append_left queue hg
    have htried := tried_lookCompatibility hknown hne (fun g hg => hstored g (hmore hg))
      fun g hg => hqueued g (hmore hg)
    rw [search, completes_cons]
    generalize lookCompatibility env (check ++ [guid]) s = found at htried
    by_cases hfull : Full env s (check ++ [guid])
    · have hmatched := htried.full hfull
      rw [if_pos hmatched]
      exact iff_of_true hmatched (.inl hfull)
    by_cases hfits : guid ∈ check ∨ Fits env s (check ++ [guid])
    · obtain ⟨hless, hknown'⟩ := htried.fits hfits
      rw [if_neg (by rw [hless]; decide), if_pos hless,
        ih hknown' (append_ne_nil check guid)
          (fun g hg => htried.same.stored.2 (hstored g (by simpa using hg)))
          (fun g hg => hqueued g (by simpa using hg)), htried.same.completes]
      simp only [hfull, false_or, joined_cons_of_fits hfits]
      exact Iff.rfl
    · have hguid : guid ∉ check := fun h => hfits (.inl h)
      have hnot : ¬ Agree env s (check ++ [guid]) := fun h => by
        by_cases hroom : (s.players (check ++ [guid])).length = maxGroupSize
        · exact hfull ⟨h, hroom⟩
        · exact hfits (.inr ⟨h, hroom⟩)
      obtain ⟨hmatched, hless, hknown'⟩ := htried.other hguid hnot
      have hrest : ∀ {g}, g ∈ check ++ queue → g ∈ check ++ guid :: queue := fun hg => by
        simp only [mem_append, mem_cons] at hg ⊢
        exact hg.imp_right .inr
      rw [if_neg hmatched, if_neg hless,
        ih hknown' hne (fun g hg => htried.same.stored.2 (hstored g (hrest hg)))
          (fun g hg => hqueued g (hrest hg)), htried.same.completes]
      simp only [hfull, false_or, joined_cons_of_not hfits]
      exact Iff.rfl

/-! ## A new guid -/

/-- A single guid is a full group, or it is known. -/
theorem lookCompatibility_single (hcompatibles : s.compatibles = []) (hstored : s.Stored guid)
    (hqueued : env.isQueued guid) :
    SameData s (lookCompatibility env [guid] s).2 ∧
      ((s.rolesOf guid).length = maxGroupSize → (lookCompatibility env [guid] s).1 = .matched) ∧
      ((s.rolesOf guid).length ≠ maxGroupSize →
        (lookCompatibility env [guid] s).1 = .withLessPlayers ∧
          Known env (lookCompatibility env [guid] s).2 [guid]) := by
  have hempty : ∀ key, s.getCompatibles key = .pending := fun key => by
    rw [getCompatibles, hcompatibles]
    rfl
  obtain ⟨data, hdata, hvalid⟩ := hstored
  have hroles : s.rolesOf guid = data.roles := by rw [rolesOf, hdata]; rfl
  have hnum : (Count.add env guid data {}).numPlayers = data.roles.length := by
    have hfew := hvalid.2.1
    rw [Count.add, Nat.zero_add, Nat.mod_eq_of_lt (by omega)]
  have hgroups : (Count.add env guid data {}).numLfgGroups ≤ 1 := by
    rw [Count.add]
    dsimp only
    split_ifs <;> omega
  have hcheck : checkCompatibility env [guid] s = checkGroups env [guid] s := by
    rw [checkCompatibility, if_neg (by simp [maxGroupSize]), if_neg (by simp)]
  have hcount : count env s [guid] {} = .ok (Count.add env guid data {}) := by
    rw [count, if_pos ⟨by decide, by decide⟩, hdata]
    rfl
  have hstores := stores_checkGroups hcount
  have hfirst : (checkGroups env [guid] s).1 =
      if data.roles.length = maxGroupSize then .matched else .withLessPlayers := by
    unfold checkGroups
    rw [hcount]
    dsimp only
    rw [hnum]
    by_cases hfull : data.roles.length = maxGroupSize
    · have hok : ∃ roles, agreedRoles env s [guid] data.roles.length = .ok roles :=
        ⟨_, if_neg (by simp)⟩
      obtain ⟨roles, hok⟩ := hok
      rw [if_neg fun h => h.2 hfull, if_neg (by omega), if_neg (by omega), hok, if_pos hfull]
      dsimp only
      rw [checkAgreed, hnum, if_neg (not_not.2 hfull),
        if_neg (by simp [LfgView.allQueued, hqueued])]
    · rw [if_pos ⟨rfl, hfull⟩, if_neg hfull]
  have hbad : (checkCompatibility env [guid] s).1 ≠ .badStates := by
    rw [hcheck, hfirst]
    split_ifs <;> decide
  rw [lookCompatibility_of_pending (hempty _) hbad, hcheck, hroles]
  refine ⟨hstores.same, fun hfull => by rw [hfirst, if_pos hfull], fun hroom => ?_⟩
  rw [if_neg hroom] at hfirst
  refine ⟨hfirst, by rw [hstores.stored, if_pos rfl, hfirst], fun key hkey => ?_,
    fun guid' hguid' hkey => ?_⟩
  · rw [hstores.stored] at hkey
    split_ifs at hkey with hself
    · exact ⟨[guid], guid, by simp, hself.symm, fun g hg => .inl hg⟩
    · exact (hkey (hempty key)).elim
  · rw [hstores.stored] at hkey
    split_ifs at hkey with hself
    · exact (hguid' (((concatenateGuids_eq_iff (by simp) (append_ne_nil _ _)).1 hself guid').2
        (by simp))).elim
    · exact (hkey (hempty _)).elim

/-- A new guid finds a group exactly when it is one, or when a guid of the queue completes those
that are kept before it. -/
theorem findNewGroups_matched_iff (hcompatibles : s.compatibles = [])
    (hstored : ∀ g ∈ guid :: queue, s.Stored g) (hqueued : ∀ g ∈ guid :: queue, env.isQueued g) :
    ∃ compatibles left s', findNewGroups env (queue.length + 1) [guid] queue s =
        some (compatibles, left, s') ∧
      (compatibles = .matched ↔
        (s.rolesOf guid).length = maxGroupSize ∨ Completes env s [guid] queue) := by
  obtain ⟨hsame, hfull, hroom⟩ := lookCompatibility_single hcompatibles
    (hstored guid mem_cons_self) (hqueued guid mem_cons_self)
  obtain ⟨hstop, hgo⟩ := findNewGroups_eq env [guid] s
    (Nat.lt_succ_self queue.length)
  by_cases hplayers : (s.rolesOf guid).length = maxGroupSize
  · have hmatched := hfull hplayers
    obtain ⟨left, heq⟩ := hstop (by rw [hmatched]; decide)
    exact ⟨_, left, _, heq, iff_of_true hmatched (.inl hplayers)⟩
  · obtain ⟨hless, hknown⟩ := hroom hplayers
    obtain ⟨left, heq⟩ := hgo hless
    refine ⟨_, left, _, heq, ?_⟩
    rw [search_matched_iff hknown (by simp) (fun g hg => hsame.stored.2 (hstored g hg)) hqueued,
      hsame.completes]
    simp [hplayers]

/-- Five players that can go into a dungeon together. -/
structure Ready (env : LfgView) (s : LfgQueue) (check : List ℕ) : Prop where
  players : (s.players check).length = maxGroupSize
  distinct : ((s.players check).map Prod.fst).Nodup
  ignores : (s.players check).Pairwise fun p p' => env.hasIgnore p.1 p'.1 = false
  roles : ∃ roles, Choice (s.players check) roles
  dungeons : ∃ dungeon, ∀ guid ∈ check, dungeon ∈ s.dungeonsOf guid

/-- With an empty cache, `FindNewGroups` finds a group, where some of the queue are ready for one
with the new guid, exactly when the new guid is one or a guid of the queue completes those that are
kept before it. -/
theorem findNewGroups_complete_iff (env : LfgView) (s : LfgQueue) (guid : ℕ) (queue : List ℕ)
    (hcompatibles : s.compatibles = []) (hstored : ∀ g ∈ guid :: queue, s.Stored g)
    (hqueued : ∀ g ∈ guid :: queue, env.isQueued g) :
    ∃ compatibles left s', findNewGroups env (queue.length + 1) [guid] queue s =
        some (compatibles, left, s') ∧
      (((∃ group, group.Sublist queue ∧ Ready env s (guid :: group)) → compatibles = .matched) ↔
        ((∃ group, group.Sublist queue ∧ Ready env s (guid :: group)) →
          (s.rolesOf guid).length = maxGroupSize ∨ Completes env s [guid] queue)) := by
  obtain ⟨compatibles, left, s', heq, hiff⟩ :=
    findNewGroups_matched_iff hcompatibles hstored hqueued
  exact ⟨compatibles, left, s', heq, by rw [hiff]⟩

/-- A world where all are queued, and nobody ignores anybody. -/
def allQueuedView : LfgView where
  isGroupGuid guid := guid / 2 ^ 52 = 0x1F5
  isLfgGroup _ := false
  ignores _ _ := false
  isQueued _ := true
  wasInDungeon _ := false

/-- The guid of a group with a healer and three damage dealers. -/
def fourPlayers : ℕ := 0x1F50000000000001

/-- A tank, a healer and a group of four are queued for a dungeon. -/
def tankAndFour : LfgQueue :=
  ((LfgQueue.addQueueData {} 2 {7} [(2, 0x04#8)]).addQueueData fourPlayers {7}
    [(11, 0x04#8), (12, 0x08#8), (13, 0x08#8), (14, 0x08#8)]).addQueueData 1 {7} [(1, 0x02#8)]

theorem ready_tankAndFour : Ready allQueuedView tankAndFour [1, fourPlayers] where
  players := by decide
  distinct := by decide
  ignores := by decide
  roles := ⟨[.tank, .healer, .damage, .damage, .damage], by decide, by decide⟩
  dungeons := ⟨7, by decide⟩

theorem findNewGroups_four : ∃ left s',
    findNewGroups allQueuedView 2 [1] [fourPlayers] tankAndFour = some (.matched, left, s') := by
  have hready := ready_tankAndFour
  obtain ⟨compatibles, left, s', heq, hiff⟩ :=
    findNewGroups_complete_iff allQueuedView tankAndFour 1 [fourPlayers] rfl
      (by
        intro g hg
        rcases mem_pair.1 hg with rfl | rfl
        · exact ⟨_, rfl, by decide, by decide, by decide⟩
        · exact ⟨_, rfl, by decide, by decide, by decide⟩)
      fun _ _ => rfl
  have hmatched := hiff.2
    (fun _ => .inr ⟨[], fourPlayers, [], rfl, ⟨by decide, by decide, hready.distinct,
      hready.ignores, hready.roles, hready.dungeons⟩, hready.players⟩)
    ⟨[fourPlayers], List.Sublist.refl _, hready⟩
  subst hmatched
  exact ⟨left, s', heq⟩

/-- The tank is kept with the healer, who is in front of the group, and never tried without him. -/
theorem findNewGroups_healerFirst :
    (∃ group, group.Sublist [2, fourPlayers] ∧ Ready allQueuedView tankAndFour (1 :: group)) ∧
      (findNewGroups allQueuedView 3 [1] [2, fourPlayers] tankAndFour).map (fun r => r.1) =
        some .withLessPlayers :=
  ⟨⟨[fourPlayers], by decide, ready_tankAndFour⟩, by decide⟩

end LfgQueue

end MistyWorld
