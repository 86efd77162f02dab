import MistyWorld.ConditionMask
import MistyWorld.RefGraph

/-!
# References between condition lists

A reference template of `ConditionMgr` may refer to other templates, which `Refers` collects. The
two recursions over condition lists follow these references : `IsObjectMeetToConditionList` and
`GetSearcherTypeMaskForConditionList`.

`Holds` says which lists are met, in terms of the conditions alone : those of one else group hold,
and an entry that refers to a template holds when the template does. In a store without cycles the
first recursion computes it for any list, so that neither the order of the list nor that of the
templates matters (`isObjectMeetToConditionList_eq`).

`LoadConditions` looks at one row at a time and skips a template that refers to itself. The
templates may still refer to each other : the store has no cycle, and the recursions end, exactly
when the rows that are left have none (`conditions_acyclic_iff`).
-/

open List ElseGroups RefGraph

namespace MistyWorld

variable {O : Type*} [DecidableEq O] {w : World O} {s : ConditionSourceInfo O} {db : Database}

namespace ConditionMgr

variable {mgr mgr' : ConditionMgr} {conditions conditions' l : List Condition}

/-- One reference template has an entry that refers to the other. -/
def Refers (mgr : ConditionMgr) (id id' : ℕ) : Prop :=
  ∃ conditions, mgr.reference id = some conditions ∧
    ∃ c ∈ conditions, c.referenceId ≠ 0 ∧ c.referenceId = id'

theorem mem_knownReferences {id : ℕ} (h : mgr.reference id = some conditions) :
    id ∈ mgr.knownReferences := by
  obtain ⟨e, he, -⟩ := Option.map_eq_some_iff.1 h
  obtain ⟨hmem, hkey⟩ := Keyed.mem_of_find he
  exact mem_toFinset.2 (hkey ▸ mem_map_of_mem hmem)

/-- How many templates can be reached from a template. -/
noncomputable def referenceHeight (mgr : ConditionMgr) (id : ℕ) : ℕ :=
  height mgr.Refers mgr.knownReferences id

/-- The templates that a list refers to are below a height. -/
def Below (mgr : ConditionMgr) (n : ℕ) (conditions : List Condition) : Prop :=
  ∀ c ∈ conditions, c.referenceId ≠ 0 → ∀ l, mgr.reference c.referenceId = some l →
    mgr.referenceHeight c.referenceId < n

/-- A template that is referred to refers to lower ones. -/
theorem below_of_reference (hacyclic : ∀ id, ¬ Relation.TransGen mgr.Refers id id) {id : ℕ}
    (h : mgr.reference id = some conditions) : mgr.Below (mgr.referenceHeight id) conditions :=
  fun c hc hne _ hl =>
    height_lt hacyclic ⟨conditions, h, c, hc, hne, rfl⟩ (mem_knownReferences hl)

/-- Every list is below the number of templates. -/
theorem below_length (hacyclic : ∀ id, ¬ Relation.TransGen mgr.Refers id id)
    (conditions : List Condition) : mgr.Below mgr.conditionReferenceStore.length conditions :=
  fun _ _ _ _ hl =>
    (height_lt_card hacyclic (mem_knownReferences hl)).trans_le mgr.card_knownReferences_le

theorem Below.mono {m n : ℕ} (h : mgr.Below m conditions) (hmn : m ≤ n) : mgr.Below n conditions :=
  fun c hc hne l hl => (h c hc hne l hl).trans_le hmn

/-! ## What a list says -/

/-- The list holds when the conditions with `v` do : all loaded entries of some else group hold,
where an entry that refers to a template holds if the template does. -/
inductive Holds (mgr : ConditionMgr) (v : Condition → Prop) : List Condition → Prop
  | group {conditions : List Condition} (c : Condition) (hc : c ∈ conditions)
      (hloaded : c.isLoaded = true)
      (hv : ∀ d ∈ conditions, d.isLoaded = true → d.elseGroup = c.elseGroup →
        d.referenceId = 0 → v d)
      (hr : ∀ d ∈ conditions, d.isLoaded = true → d.elseGroup = c.elseGroup →
        d.referenceId ≠ 0 → ∀ l, mgr.reference d.referenceId = some l → Holds mgr v l) :
      Holds mgr v conditions

/-- An entry of a list holds. -/
def EntryHolds (mgr : ConditionMgr) (v : Condition → Prop) (c : Condition) : Prop :=
  if c.referenceId = 0 then v c
  else ∀ l, mgr.reference c.referenceId = some l → mgr.Holds v l

theorem holds_iff {v : Condition → Prop} : mgr.Holds v conditions ↔
    ∃ c ∈ conditions.filter Condition.isLoaded, ∀ d ∈ conditions.filter Condition.isLoaded,
      d.elseGroup = c.elseGroup → mgr.EntryHolds v d := by
  simp only [mem_filter]
  constructor
  · rintro ⟨c, hc, hloaded, hv, hr⟩
    refine ⟨c, ⟨hc, hloaded⟩, fun d hd hgroup => ?_⟩
    unfold EntryHolds
    split_ifs with href
    · exact hv d hd.1 hd.2 hgroup href
    · exact hr d hd.1 hd.2 hgroup href
  · rintro ⟨c, ⟨hc, hloaded⟩, h⟩
    refine .group c hc hloaded (fun d hd hd' hgroup href => ?_) fun d hd hd' hgroup href => ?_
    · have hentry := h d ⟨hd, hd'⟩ hgroup
      rwa [EntryHolds, if_pos href] at hentry
    · have hentry := h d ⟨hd, hd'⟩ hgroup
      rwa [EntryHolds, if_neg href] at hentry

/-- The two stores have the same templates, up to the order of their entries. -/
def SameReferences (mgr mgr' : ConditionMgr) : Prop :=
  ∀ id, Option.Rel List.Perm (mgr.reference id) (mgr'.reference id)

theorem SameReferences.symm (h : mgr.SameReferences mgr') : mgr'.SameReferences mgr := by
  intro id
  have hid := h id
  cases hl : mgr.reference id <;> cases hl' : mgr'.reference id <;> rw [hl, hl'] at hid
  · exact .none
  · cases hid
  · cases hid
  · cases hid with
    | some hperm => exact .some hperm.symm

theorem SameReferences.exists_perm (h : mgr.SameReferences mgr') {id : ℕ}
    (hid : mgr'.reference id = some conditions') :
    ∃ conditions, mgr.reference id = some conditions ∧ conditions.Perm conditions' := by
  have hrel := h id
  rw [hid] at hrel
  cases hl : mgr.reference id with
  | none =>
    rw [hl] at hrel
    cases hrel
  | some l =>
    rw [hl] at hrel
    cases hrel with
    | some hperm => exact ⟨l, rfl, hperm⟩

theorem SameReferences.refers (h : mgr.SameReferences mgr') {id id' : ℕ}
    (href : mgr'.Refers id id') : mgr.Refers id id' := by
  obtain ⟨conditions', hconditions', c, hc, hne, rfl⟩ := href
  obtain ⟨conditions, hconditions, hperm⟩ := h.exists_perm hconditions'
  exact ⟨conditions, hconditions, c, hperm.mem_iff.2 hc, hne, rfl⟩

/-- The order of the conditions does not matter. -/
theorem Holds.perm {v : Condition → Prop} (h : mgr.Holds v conditions)
    (hsame : mgr.SameReferences mgr') (hperm : conditions.Perm conditions') :
    mgr'.Holds v conditions' := by
  induction h generalizing conditions' with
  | group c hc hloaded hv _ ih =>
    refine .group c (hperm.mem_iff.1 hc) hloaded (fun d hd => hv d (hperm.mem_iff.2 hd)) ?_
    intro d hd hd' hgroup href l' hl'
    obtain ⟨l, hl, hperm'⟩ := hsame.exists_perm hl'
    exact ih d (hperm.mem_iff.2 hd) hd' hgroup href l hl hperm'

/-! ## The loop over a list -/

section Meets

variable (mgr w s)

/-- The loop of `IsObjectMeetToConditionList` over the loaded conditions, with an evaluation of the
templates. -/
def loadedScheme (listMeets : List Condition → Except Failure Bool) :
    Scheme Condition ℕ Bool Failure where
  key := Condition.elseGroup
  top := true
  meet := (· && ·)
  done := (!·)
  value := mgr.entryMeets w s listMeets

variable {mgr w s}

theorem loadedScheme_reads (listMeets : List Condition → Except Failure Bool) :
    (mgr.loadedScheme w s listMeets).Reads id where
  top := rfl
  meet _ _ := rfl
  done a ha := by simpa [loadedScheme] using ha

/-- Conditions that are not loaded are passed over. -/
theorem meetStep_foldlM (listMeets : List Condition → Except Failure Bool)
    (l : List Condition) (store : List (ℕ × Bool)) :
    l.foldlM (mgr.meetStep w s listMeets) store =
      (l.filter Condition.isLoaded).foldlM (mgr.loadedScheme w s listMeets).step store := by
  rw [foldlM_filter]
  refine foldlM_congr store fun c _ store => ?_
  unfold meetStep Scheme.step
  simp only [loadedScheme, Bool.true_and]
  split_ifs with hloaded
  · cases Keyed.find Prod.fst store c.elseGroup with
    | none => rfl
    | some group => cases hmet : group.2 <;> simp [hmet]
  · rfl

/-- The conditions of the list and of the templates are evaluated without a failed assertion. -/
def Evaluates (mgr : ConditionMgr) (w : World O) (s : ConditionSourceInfo O)
    (conditions : List Condition) : Prop :=
  ∀ c, (c ∈ conditions ∨ ∃ id l, mgr.reference id = some l ∧ c ∈ l) → c.referenceId = 0 →
    ∃ met, c.meets w s = .ok met

theorem Evaluates.reference (h : mgr.Evaluates w s conditions) {id : ℕ}
    (hl : mgr.reference id = some l) : mgr.Evaluates w s l := by
  intro c hc
  rcases hc with hc | hc
  · exact h c (.inr ⟨id, l, hl, hc⟩)
  · exact h c (.inr hc)

theorem Evaluates.perm (h : mgr.Evaluates w s conditions) (hsame : mgr.SameReferences mgr')
    (hperm : conditions.Perm conditions') : mgr'.Evaluates w s conditions' := by
  intro c hc
  rcases hc with hc | ⟨id, l', hl', hc⟩
  · exact h c (.inl (hperm.mem_iff.2 hc))
  · obtain ⟨l, hl, hperm'⟩ := hsame.exists_perm hl'
    exact h c (.inr ⟨id, l, hl, hperm'.mem_iff.2 hc⟩)

/-- The list is evaluated when there is a depth for each list of templates below each other. -/
theorem exists_meetList (hacyclic : ∀ id, ¬ Relation.TransGen mgr.Refers id id) (n : ℕ)
    (hmeets : mgr.Evaluates w s conditions) (hbelow : mgr.Below n conditions) :
    ∃ met, mgr.meetList w s (n + 1) conditions = .ok met ∧
      (met = true ↔ mgr.Holds (fun c => c.meets w s = .ok true) conditions) := by
  induction n using Nat.strong_induction_on generalizing conditions with
  | _ n ih =>
    have hvalue : ∀ c ∈ conditions.filter Condition.isLoaded,
        ∃ met, (mgr.loadedScheme w s (mgr.meetList w s n)).value c = .ok met ∧
          (id met = true ↔ mgr.EntryHolds (fun c => c.meets w s = .ok true) c) := by
      intro c hc
      replace hc := mem_of_mem_filter hc
      simp only [loadedScheme, entryMeets, EntryHolds, ne_eq, ite_not]
      split_ifs with href
      · obtain ⟨met, hmet⟩ := hmeets c (.inl hc) href
        exact ⟨met, hmet, by simp [hmet]⟩
      · cases hl : mgr.reference c.referenceId with
        | none => exact ⟨true, rfl, by simp⟩
        | some l =>
          have hlt := hbelow c hc href l hl
          obtain ⟨m, rfl⟩ : ∃ m, n = m + 1 := ⟨n - 1, by omega⟩
          obtain ⟨met, hmet, hiff⟩ := ih m (Nat.lt_succ_self m) (hmeets.reference hl)
            ((below_of_reference hacyclic hl).mono (by omega))
          refine ⟨met, hmet, ?_⟩
          simpa using hiff
    obtain ⟨store, hfold, h⟩ := Scheme.exists_foldlM (loadedScheme_reads _) _ hvalue
    refine ⟨store.any Prod.snd, ?_, ?_⟩
    · rw [meetList, meetStep_foldlM, hfold]
      rfl
    · rw [holds_iff]
      exact h.any_iff

/-- In a store without cycles the list is met exactly when it holds, and the order of the list and
of the templates does not matter. -/
theorem isObjectMeetToConditionList_eq (mgr : ConditionMgr) (w : World O)
    (s : ConditionSourceInfo O) (conditions : List Condition)
    (hacyclic : ∀ id, ¬ Relation.TransGen mgr.Refers id id)
    (hmeets : mgr.Evaluates w s conditions) :
    ∃ met, mgr.isObjectMeetToConditionList w s conditions = .ok met ∧
      (met = true ↔ mgr.Holds (fun c => c.meets w s = .ok true) conditions) ∧
      ∀ mgr' conditions', mgr.SameReferences mgr' → conditions.Perm conditions' →
        mgr'.isObjectMeetToConditionList w s conditions' = .ok met := by
  obtain ⟨met, hmet, hiff⟩ := exists_meetList hacyclic _ hmeets (below_length hacyclic conditions)
  refine ⟨met, hmet, hiff, fun mgr' conditions' hsame hperm => ?_⟩
  have hacyclic' : ∀ id, ¬ Relation.TransGen mgr'.Refers id id :=
    fun i hcycle => hacyclic i (hcycle.lift id fun _ _ => hsame.refers)
  obtain ⟨met', hmet', hiff'⟩ := exists_meetList hacyclic' _ (hmeets.perm hsame hperm)
    (below_length hacyclic' conditions')
  have heq : met' = met := by
    rw [Bool.eq_iff_iff, hiff, hiff']
    exact ⟨fun h => h.perm hsame.symm hperm.symm, fun h => h.perm hsame hperm⟩
  exact heq ▸ hmet'

/-- A template that asks for a living object. -/
def livingTemplate : ConditionMgr :=
  { conditionReferenceStore := [(5, [{ conditionType := .alive }])] }

/-- Two else groups : that the object is dead, and a reference to the template. -/
def deadOrLiving : List Condition :=
  [{ elseGroup := 1, conditionType := .alive, negativeCondition := true }, { referenceId := 5 }]

/-- Living objects meet the two groups, in any order. -/
theorem isObjectMeetToConditionList_living :
    livingTemplate.isObjectMeetToConditionList livingWorld (targets .creature .player)
        deadOrLiving = .ok true ∧
      ∀ mgr' conditions', livingTemplate.SameReferences mgr' → deadOrLiving.Perm conditions' →
        mgr'.isObjectMeetToConditionList livingWorld (targets .creature .player) conditions' =
          .ok true := by
  have href : ∀ id, livingTemplate.reference id = _ := reference_of_store rfl
  have hrefers : ∀ i j, ¬ livingTemplate.Refers i j := by
    rintro i j ⟨l, hl, c, hc, hne, -⟩
    rw [href] at hl
    split_ifs at hl
    obtain rfl := Option.some.inj hl
    rw [mem_singleton.1 hc] at hne
    exact hne rfl
  have hevaluates : livingTemplate.Evaluates livingWorld (targets .creature .player)
      deadOrLiving := by
    rintro c (hc | ⟨id, l, hl, hc⟩) -
    · rcases mem_cons.1 hc with rfl | hc
      · exact ⟨false, rfl⟩
      · exact ⟨true, mem_singleton.1 hc ▸ rfl⟩
    · rw [href] at hl
      split_ifs at hl
      obtain rfl := Option.some.inj hl
      exact ⟨true, mem_singleton.1 hc ▸ rfl⟩
  obtain ⟨met, hmet, -, hsame⟩ := isObjectMeetToConditionList_eq livingTemplate livingWorld
    (targets .creature .player) deadOrLiving (fun i hcycle => by
      obtain ⟨j, hij, -⟩ := Relation.TransGen.head'_iff.1 hcycle
      exact hrefers i j hij) hevaluates
  have htrue : livingTemplate.isObjectMeetToConditionList livingWorld (targets .creature .player)
      deadOrLiving = .ok true := by decide +kernel
  obtain rfl : true = met := Except.ok.inj (htrue.symm.trans hmet)
  exact ⟨htrue, hsame⟩

end Meets

/-! ## Loading -/

/-- A row puts a reference into a template, and not to the template itself. -/
def RowRefers (rows : List ConditionRow) (id id' : ℕ) : Prop :=
  ∃ row ∈ rows, row.sourceTypeOrReferenceId < 0 ∧ row.conditionTypeOrReference < 0 ∧
    row.conditionTypeOrReference ≠ row.sourceTypeOrReferenceId ∧
    row.sourceTypeOrReferenceId.natAbs = id ∧ row.conditionTypeOrReference.natAbs = id'

theorem refers_addReference (mgr : ConditionMgr) (id : ℕ) (c : Condition) (i j : ℕ) :
    (mgr.addReference id c).Refers i j ↔
      mgr.Refers i j ∨ i = id ∧ c.referenceId ≠ 0 ∧ c.referenceId = j := by
  unfold Refers
  simp only [reference_addReference]
  by_cases hi : i = id
  · subst hi
    simp only [if_true, Option.some.injEq, exists_eq_left', mem_append, mem_singleton,
      true_and, or_and_right, exists_or, exists_eq_left]
    cases mgr.reference i <;> simp
  · simp [hi]

theorem refers_addCondition (db : Database) (mgr : ConditionMgr) (c : Condition) (i j : ℕ) :
    (addCondition db mgr c).Refers i j ↔ mgr.Refers i j := by
  unfold addCondition
  split_ifs <;> rfl

/-- What one row adds. -/
theorem refers_loadRow (db : Database) (mgr : ConditionMgr) (row : ConditionRow) (i j : ℕ) :
    (loadRow db mgr row).Refers i j ↔ mgr.Refers i j ∨ RowRefers [row] i j := by
  simp only [RowRefers, mem_singleton, exists_eq_left]
  unfold loadRow
  simp only
  split_ifs with hself hinvalid hsource htype
  · tauto
  · exact ⟨Or.inl, fun h => h.resolve_right fun hrow => absurd hinvalid.1 (not_le.2 hrow.2.1)⟩
  · rw [refers_addReference]
    by_cases hlt : row.conditionTypeOrReference < 0
    · simp only [readRow, ne_eq, hsource, hlt, if_true, Int.natAbs_eq_zero, hlt.ne, true_and,
        not_false_eq_true]
      tauto
    · simp [readRow, hlt]
  · cases isSourceTypeValid db (readRow row) with
    | none => exact ⟨Or.inl, fun h => h.resolve_right fun hrow => hsource hrow.1⟩
    | some c =>
      rw [refers_addCondition]
      exact ⟨Or.inl, fun h => h.resolve_right fun hrow => hsource hrow.1⟩
  · rw [refers_addCondition]
    exact ⟨Or.inl, fun h => h.resolve_right fun hrow => hsource hrow.1⟩

/-- The templates refer to each other as the rows do. -/
theorem refers_loadConditions (db : Database) (rows : List ConditionRow) (i j : ℕ) :
    (loadConditions db rows).Refers i j ↔ RowRefers rows i j := by
  unfold loadConditions
  induction rows using List.reverseRecOn with
  | nil =>
    constructor
    · rintro ⟨l, hl, -⟩
      cases hl
    · rintro ⟨row, hrow, -⟩
      cases hrow
  | append_singleton rows row ih =>
    rw [foldl_append, foldl_cons, foldl_nil, refers_loadRow, ih]
    simp only [RowRefers, mem_append, or_and_right, exists_or]

/-! ## When evaluation ends -/

/-- Both recursions over the list end, for every world and all objects. -/
structure Ends (O : Type*) [DecidableEq O] (mgr : ConditionMgr) (conditions : List Condition) :
    Prop where
  meets : ∀ (w : World O) s, ∃ depth, mgr.meetList w s depth conditions ≠ .error .endless
  mask : ∃ depth, mgr.searcherTypeMask depth conditions ≠ .error .endless

section Ends

variable {α σ ε : Type*}

theorem foldlM_ne_error {f : σ → Condition → Except ε σ} {e : ε}
    (h : ∀ c ∈ l, ∀ store, f store c ≠ .error e) (store : σ) : l.foldlM f store ≠ .error e := by
  induction l generalizing store with
  | nil => exact nofun
  | cons c l ih =>
    rw [foldlM_cons]
    cases hc : f store c with
    | error e' =>
      rintro ⟨⟩
      exact h c mem_cons_self store hc
    | ok store' => exact ih (fun d hd => h d (mem_cons_of_mem c hd)) store'

theorem map_ne_error {f : α → σ} {x : Except ε α} {e : ε} (h : x ≠ .error e) :
    x.map f ≠ .error e := by
  cases x with
  | error e' => exact fun h' => h (by cases h'; rfl)
  | ok a => exact nofun

/-- An evaluation that only recurses into the templates referred to ends when these get lower. -/
theorem ne_endless (hacyclic : ∀ id, ¬ Relation.TransGen mgr.Refers id id)
    {eval : ℕ → List Condition → Except Failure α}
    (hstep : ∀ n l, (∀ c ∈ l, mgr.Has c) →
      (∀ c ∈ l, c.referenceId ≠ 0 → ∀ l', mgr.reference c.referenceId = some l' →
        eval n l' ≠ .error .endless) → eval (n + 1) l ≠ .error .endless)
    (n : ℕ) (hl : ∀ c ∈ conditions, mgr.Has c) (hbelow : mgr.Below n conditions) :
    eval (n + 1) conditions ≠ .error .endless := by
  induction n using Nat.strong_induction_on generalizing conditions with
  | _ n ih =>
    refine hstep n conditions hl fun c hc hne l hl' => ?_
    have hlt := hbelow c hc hne l hl'
    obtain ⟨m, rfl⟩ : ∃ m, n = m + 1 := ⟨n - 1, by omega⟩
    exact ih m (Nat.lt_succ_self m) (fun d hd => .inr ⟨c.referenceId, l, hl', hd⟩)
      ((below_of_reference hacyclic hl').mono (by omega))

theorem meetList_ne_endless (h : mgr.Checked db) (n : ℕ) (hl : ∀ c ∈ conditions, mgr.Has c)
    (hrec : ∀ c ∈ conditions, c.referenceId ≠ 0 → ∀ l, mgr.reference c.referenceId = some l →
      mgr.meetList w s n l ≠ .error .endless) :
    mgr.meetList w s (n + 1) conditions ≠ .error .endless := by
  refine map_ne_error (foldlM_ne_error (fun c hc store => ?_) _)
  have hentry : mgr.entryMeets w s (mgr.meetList w s n) c ≠ .error .endless := by
    unfold entryMeets
    by_cases href : c.referenceId = 0
    · obtain ⟨met, hmet⟩ := Condition.exists_meets (w := w) (s := s) (h.valid c (hl c hc) href)
      rw [if_neg (not_not.2 href), hmet]
      rintro ⟨⟩
    · rw [if_pos href]
      cases hl' : mgr.reference c.referenceId with
      | none => rintro ⟨⟩
      | some l => exact hrec c hc href l hl'
  unfold meetStep
  split_ifs
  · split
    · exact map_ne_error hentry
    · split_ifs
      · rintro ⟨⟩
      · exact map_ne_error hentry
  · rintro ⟨⟩

theorem searcherTypeMask_ne_endless (h : mgr.Checked db) (n : ℕ) (hl : ∀ c ∈ conditions, mgr.Has c)
    (hrec : ∀ c ∈ conditions, c.referenceId ≠ 0 → ∀ l, mgr.reference c.referenceId = some l →
      mgr.searcherTypeMask n l ≠ .error .endless) :
    mgr.searcherTypeMask (n + 1) conditions ≠ .error .endless := by
  rw [searcherTypeMask]
  split_ifs
  · rintro ⟨⟩
  refine map_ne_error (foldlM_ne_error (fun c hc store => ?_) _)
  have hentry : mgr.entryMask (mgr.searcherTypeMask n) c ≠ .error .endless := by
    unfold entryMask
    by_cases href : c.referenceId = 0
    · obtain ⟨mask, hmask, -⟩ := Condition.exists_mask (h.valid c (hl c hc) href)
      rw [if_neg (not_not.2 href), hmask]
      rintro ⟨⟩
    · rw [if_pos href]
      cases hl' : mgr.reference c.referenceId with
      | none => rintro ⟨⟩
      | some l => exact hrec c hc href l hl'
  unfold searcherTypeMaskStep
  split_ifs
  · rintro ⟨⟩
  · split
    · exact map_ne_error hentry
    · split_ifs
      · rintro ⟨⟩
      · exact map_ne_error hentry

end Ends

/-- In a checked store without cycles the recursions end. -/
theorem Checked.ends (h : mgr.Checked db) (hacyclic : ∀ id, ¬ Relation.TransGen mgr.Refers id id)
    (hl : ∀ c ∈ conditions, mgr.Has c) : mgr.Ends O conditions where
  meets _ _ := ⟨_, ne_endless hacyclic (fun n _ => meetList_ne_endless h n) _ hl
    (below_length hacyclic conditions)⟩
  mask := ⟨_, ne_endless hacyclic (fun n _ => searcherTypeMask_ne_endless h n) _ hl
    (below_length hacyclic conditions)⟩

/-- For every table, the templates have no cycle and the recursions over all lists that are kept
end, exactly when the rows of templates that do not refer to themselves have no cycle. -/
theorem conditions_acyclic_iff (O : Type*) [DecidableEq O] (db : Database)
    (rows : List ConditionRow) :
    ((∀ id, ¬ Relation.TransGen (loadConditions db rows).Refers id id) ∧
      ∀ conditions, (∀ c ∈ conditions, (loadConditions db rows).Has c) →
        (loadConditions db rows).Ends O conditions) ↔
      ∀ id, ¬ Relation.TransGen (RowRefers rows) id id := by
  have hrefers : (loadConditions db rows).Refers = RowRefers rows := by
    ext i j
    exact refers_loadConditions db rows i j
  constructor
  · rintro ⟨hacyclic, -⟩
    rwa [hrefers] at hacyclic
  · intro h
    rw [← hrefers] at h
    exact ⟨h, fun conditions hl => (checked_loadConditions db rows).ends h hl⟩

/-- A list of one reference is as endless as the template. -/
theorem meetList_of_reference {c : Condition} (hne : c.referenceId ≠ 0)
    (hl : mgr.reference c.referenceId = some l) {n : ℕ} (h : mgr.meetList w s n l = .error .endless) :
    mgr.meetList w s (n + 1) [c] = .error .endless := by
  have hloaded : c.isLoaded = true := by simp [Condition.isLoaded, hne]
  have hentry : mgr.entryMeets w s (mgr.meetList w s n) c = .error .endless := by
    rw [entryMeets, if_pos hne, hl]
    exact h
  rw [meetList, foldlM_cons, meetStep, if_pos hloaded]
  simp only [Keyed.find, List.find?_nil, hentry]
  rfl

@[inherit_doc meetList_of_reference]
theorem searcherTypeMask_of_reference {c : Condition} (hne : c.referenceId ≠ 0)
    (hl : mgr.reference c.referenceId = some l) {n : ℕ}
    (h : mgr.searcherTypeMask n l = .error .endless) :
    mgr.searcherTypeMask (n + 1) [c] = .error .endless := by
  have hloaded : c.isLoaded = true := by simp [Condition.isLoaded, hne]
  have hentry : mgr.entryMask (mgr.searcherTypeMask n) c = .error .endless := by
    rw [entryMask, if_pos hne, hl]
    exact h
  rw [searcherTypeMask, if_neg (cons_ne_nil c []), foldlM_cons, searcherTypeMaskStep,
    hloaded]
  simp only [Keyed.find, List.find?_nil, hentry]
  rfl

/-- Two templates that refer to each other. -/
def mutualRows : List ConditionRow :=
  [{ sourceTypeOrReferenceId := -1, conditionTypeOrReference := -2 },
    { sourceTypeOrReferenceId := -2, conditionTypeOrReference := -1 }]

/-- They are loaded, and the evaluation of each never ends. -/
theorem conditions_mutual :
    ∃ l, (loadConditions default mutualRows).reference 1 = some l ∧
      Relation.TransGen (loadConditions default mutualRows).Refers 1 1 ∧
      (∀ (w : World Unit) s depth,
        (loadConditions default mutualRows).meetList w s depth l = .error .endless) ∧
      ∀ depth, (loadConditions default mutualRows).searcherTypeMask depth l = .error .endless := by
  have href : (loadConditions default mutualRows).reference 1 = some [{ referenceId := 2 }] ∧
      (loadConditions default mutualRows).reference 2 = some [{ referenceId := 1 }] := by
    decide +kernel
  have hrefers : ∀ i j, RowRefers mutualRows i j → (loadConditions default mutualRows).Refers i j :=
    fun i j => (refers_loadConditions default mutualRows i j).2
  refine ⟨_, href.1, .tail (.single (hrefers 1 2 ?_)) (hrefers 2 1 ?_), fun w s depth => ?_,
    fun depth => ?_⟩
  · exact ⟨_, mem_cons_self, by decide⟩
  · exact ⟨_, mem_cons_of_mem _ mem_cons_self, by decide⟩
  · have hboth : (loadConditions default mutualRows).meetList w s depth [{ referenceId := 2 }] =
          .error .endless ∧
        (loadConditions default mutualRows).meetList w s depth [{ referenceId := 1 }] =
          .error .endless := by
      induction depth with
      | zero => exact ⟨rfl, rfl⟩
      | succ depth ih =>
        exact ⟨meetList_of_reference (by decide) href.2 ih.2,
          meetList_of_reference (by decide) href.1 ih.1⟩
    exact hboth.1
  · have hboth : (loadConditions default mutualRows).searcherTypeMask depth [{ referenceId := 2 }] =
          .error .endless ∧
        (loadConditions default mutualRows).searcherTypeMask depth [{ referenceId := 1 }] =
          .error .endless := by
      induction depth with
      | zero => exact ⟨rfl, rfl⟩
      | succ depth ih =>
        exact ⟨searcherTypeMask_of_reference (by decide) href.2 ih.2,
          searcherTypeMask_of_reference (by decide) href.1 ih.1⟩
    exact hboth.1

end ConditionMgr

end MistyWorld
