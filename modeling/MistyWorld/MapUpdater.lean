import Mathlib.Data.List.Perm.Basic
import MistyWorld.Run

/-!
# The threads that update the maps

`MapManager::Update` schedules an update of every map and waits until no request is pending. The
threads of `DelayExecutor` take the requests, and `MapInstanced::Update` schedules its instances
before its own request is finished. Each function with the mutex is one step, in any order of the
threads. A request that `execute` does not take is lost.

When `wait` returns, the threads have nothing left to do, and what was updated, with what was lost,
are the maps and the instances of those that were updated (`MapUpdater.wait_complete`).
-/

open List Machine

namespace MistyWorld

variable {M : Type*}

/-- `MapUpdater` in an update of `MapManager`. `maps` are still to schedule, `queue` is that of the
executor, `calls` are the maps in `MapUpdateRequest::call`, with the instances they still schedule,
and `bug` is the error of `update_finished`. -/
structure MapUpdater (M : Type*) where
  maps : List M
  pendingRequests : ℕ := 0
  queue : List M := []
  calls : List (M × List M) := []
  updated : List M := []
  lost : List M := []
  bug : Bool := false

/-- What a thread does next, and whether `execute` takes a request. -/
inductive MapUpdaterStep
  | schedule (executes : Bool)
  | dequeue
  | call (thread : ℕ) (executes : Bool)

namespace MapUpdater

/-- `schedule_update` -/
def scheduleUpdate (s : MapUpdater M) (map : M) (executes : Bool) : MapUpdater M :=
  let s := { s with pendingRequests := s.pendingRequests + 1 }
  if executes then { s with queue := s.queue ++ [map] }
  else { s with pendingRequests := s.pendingRequests - 1, lost := s.lost ++ [map] }

/-- `update_finished` -/
def updateFinished (s : MapUpdater M) : MapUpdater M :=
  if s.pendingRequests = 0 then { s with bug := true }
  else { s with pendingRequests := s.pendingRequests - 1 }

/-- A step of the threads. `instances` are those that `MapInstanced::Update` schedules. -/
def step (numThreads : ℕ) (instances : M → List M) (s : MapUpdater M) :
    MapUpdaterStep → MapUpdater M
  | .schedule executes =>
    match s.maps with
    | [] => s
    | map :: maps => { s with maps }.scheduleUpdate map executes
  | .dequeue =>
    match s.queue with
    | [] => s
    | map :: queue =>
      if s.calls.length < numThreads then
        { s with queue, calls := s.calls ++ [(map, instances map)] }
      else s
  | .call thread executes =>
    match s.calls[thread]? with
    | none => s
    | some (map, inst :: rest) =>
      { s with calls := s.calls.set thread (map, rest) }.scheduleUpdate inst executes
    | some (map, []) =>
      { s with calls := s.calls.eraseIdx thread, updated := s.updated ++ [map] }.updateFinished

/-- What every step keeps. -/
structure Keeps (instances : M → List M) (maps : List M) (s : MapUpdater M) : Prop where
  pending : s.pendingRequests = s.queue.length + s.calls.length
  noBug : s.bug = false
  perm : (s.maps ++ s.queue ++ s.lost ++ s.updated ++ s.calls.flatMap fun c => c.1 :: c.2).Perm
    (maps ++ s.updated.flatMap instances ++ s.calls.flatMap fun c => instances c.1)

variable {numThreads : ℕ} {instances : M → List M} {maps : List M} {s : MapUpdater M}

theorem keeps_scheduleUpdate {map : M} (executes : Bool)
    (hpending : s.pendingRequests = s.queue.length + s.calls.length) (hbug : s.bug = false)
    (hperm : (map :: s.maps ++ s.queue ++ s.lost ++ s.updated ++
      s.calls.flatMap fun c => c.1 :: c.2).Perm
        (maps ++ s.updated.flatMap instances ++ s.calls.flatMap fun c => instances c.1)) :
    Keeps instances maps (s.scheduleUpdate map executes) := by
  classical
  cases executes <;> refine ⟨by simp [scheduleUpdate]; omega, hbug,
    (perm_iff_count.2 fun m => ?_).trans hperm⟩ <;>
    simp [scheduleUpdate, count_cons] <;> omega

/-- A call among the others. -/
theorem count_calls [DecidableEq M] {thread : ℕ} {c : M × List M}
    (hcall : s.calls[thread]? = some c) (f : M × List M → List M) (m : M) :
    (s.calls.flatMap f).count m = (f c).count m + ((s.calls.eraseIdx thread).flatMap f).count m ∧
    ∀ c', ((s.calls.set thread c').flatMap f).count m =
      (f c').count m + ((s.calls.eraseIdx thread).flatMap f).count m := by
  obtain ⟨hlt, rfl⟩ := List.getElem?_eq_some_iff.1 hcall
  have herase := getElem_cons_eraseIdx_perm hlt
  have hset := set_perm_cons_eraseIdx hlt
  refine ⟨?_, fun c' => ?_⟩
  · rw [← (herase.flatMap_right f).count_eq, flatMap_cons, count_append]
  · rw [((hset c').flatMap_right f).count_eq, flatMap_cons, count_append]

theorem Keeps.step (h : Keeps instances maps s) (a : MapUpdaterStep) :
    Keeps instances maps (s.step numThreads instances a) := by
  classical
  have hpending := h.pending
  have hcount := fun m => h.perm.count_eq m
  cases a with
  | schedule executes =>
    cases hmaps : s.maps with
    | nil => simpa [MapUpdater.step, hmaps]
    | cons map rest =>
      simp only [MapUpdater.step, hmaps]
      exact keeps_scheduleUpdate executes h.pending h.noBug (hmaps ▸ h.perm)
  | dequeue =>
    cases hqueue : s.queue with
    | nil => simpa [MapUpdater.step, hqueue]
    | cons map queue =>
      simp only [MapUpdater.step, hqueue]
      split_ifs
      · refine ⟨?_, h.noBug, perm_iff_count.2 fun m => ?_⟩
        · simp [hpending, hqueue]
          omega
        · specialize hcount m
          simp [hqueue, count_cons] at hcount ⊢
          omega
      · exact h
  | call thread executes =>
    cases hcall : s.calls[thread]? with
    | none => simpa [MapUpdater.step, hcall]
    | some c =>
      have hlt := (List.getElem?_eq_some_iff.1 hcall).1
      have hcalls := count_calls hcall fun c => c.1 :: c.2
      have hupdating := count_calls hcall fun c => instances c.1
      obtain ⟨map, _ | ⟨inst, rest⟩⟩ := c
      · have hne : s.pendingRequests ≠ 0 := by omega
        simp only [MapUpdater.step, hcall, updateFinished, if_neg hne]
        refine ⟨?_, h.noBug, perm_iff_count.2 fun m => ?_⟩
        · simp [length_eraseIdx, hlt]
          omega
        · specialize hcount m
          simp [(hcalls m).1, (hupdating m).1, count_cons] at hcount ⊢
          omega
      · simp only [MapUpdater.step, hcall]
        refine keeps_scheduleUpdate executes (by simpa) h.noBug (perm_iff_count.2 fun m => ?_)
        specialize hcount m
        simp [(hcalls m).1, (hupdating m).1, (hcalls m).2, (hupdating m).2,
          count_cons] at hcount ⊢
        omega

/-- The invariant holds however the threads run. -/
theorem keeps_run (steps : List MapUpdaterStep) :
    Keeps instances maps (run (step numThreads instances) { maps } steps) :=
  run_of_invariant (fun _ a h => h.step a) steps ⟨rfl, rfl, by simp⟩

/-- However the threads run, once all maps are scheduled and no request is pending, none is queued
or in call, the threads have nothing left to do, and every request that was taken has been served
once. -/
theorem wait_complete (steps : List MapUpdaterStep)
    (hmaps : (run (step numThreads instances) { maps } steps).maps = [])
    (hpending : (run (step numThreads instances) { maps } steps).pendingRequests = 0) :
    let s := run (step numThreads instances) { maps } steps
    s.queue = [] ∧ s.calls = [] ∧ (∀ a, s.step numThreads instances a = s) ∧ s.bug = false ∧
      (s.lost ++ s.updated).Perm (maps ++ s.updated.flatMap instances) := by
  intro s
  have h : Keeps instances maps s := keeps_run steps
  have hlength := h.pending
  rw [show s.pendingRequests = 0 from hpending] at hlength
  have hqueue : s.queue = [] := length_eq_zero_iff.1 (by omega)
  have hcalls : s.calls = [] := length_eq_zero_iff.1 (by omega)
  refine ⟨hqueue, hcalls, fun a => ?_, h.noBug, ?_⟩
  · cases a <;> simp [step, show s.maps = [] from hmaps, hqueue, hcalls]
  · simpa [show s.maps = [] from hmaps, hqueue, hcalls] using h.perm

/-- A map with two instances, and two threads. -/
theorem wait_complete_instances :
    let s := run (step 2 fun map : ℕ => if map = 0 then [1, 2] else []) { maps := [0] }
      [.schedule true, .dequeue, .call 0 true, .dequeue, .call 0 false, .call 1 true, .call 0 true]
    s.queue = [] ∧ s.calls = [] ∧ s.bug = false ∧ (s.lost ++ s.updated).Perm
      ([0] ++ s.updated.flatMap fun map : ℕ => if map = 0 then [1, 2] else []) := by
  intro s
  obtain ⟨hqueue, hcalls, -, hrest⟩ : _ ∧ _ ∧ (∀ a, s.step 2 _ a = s) ∧ _ :=
    wait_complete _ (by decide) (by decide)
  exact ⟨hqueue, hcalls, hrest⟩

/-- However the threads run, while a map is to schedule or a request is pending, some step has an
effect. -/
theorem no_deadlock (steps : List MapUpdaterStep) (hthreads : 0 < numThreads)
    (hwait : (run (step numThreads instances) { maps } steps).maps ≠ [] ∨
      (run (step numThreads instances) { maps } steps).pendingRequests ≠ 0) :
    let s := run (step numThreads instances) { maps } steps
    ∃ a, s.step numThreads instances a ≠ s := by
  intro s
  have h : Keeps instances maps s := keeps_run steps
  by_cases hmaps : s.maps = []
  · have hpending : s.pendingRequests ≠ 0 := hwait.resolve_left (not_not_intro hmaps)
    rw [h.pending] at hpending
    cases hcalls : s.calls with
    | nil =>
      cases hqueue : s.queue with
      | nil => simp [hqueue, hcalls] at hpending
      | cons map queue =>
        refine ⟨.dequeue, fun heq => ?_⟩
        have := congrArg calls heq
        simp [step, hqueue, hcalls, hthreads] at this
    | cons c calls =>
      refine ⟨.call 0 true, fun heq => ?_⟩
      have := congrArg MapUpdater.calls heq
      obtain ⟨map, _ | ⟨inst, rest⟩⟩ := c
      · simp only [step, hcalls, List.getElem?_cons_zero, updateFinished] at this
        split_ifs at this <;> simp at this
      · simp [step, hcalls, scheduleUpdate] at this
  · obtain ⟨map, rest, hrest⟩ := exists_cons_of_ne_nil hmaps
    refine ⟨.schedule true, fun heq => ?_⟩
    have := congrArg MapUpdater.maps heq
    simp [step, hrest, scheduleUpdate] at this

/-- One thread, with a map in call and another queued. -/
theorem no_deadlock_start :
    let s := run (step 1 fun _ : ℕ => []) { maps := [0, 1] }
      [.schedule true, .dequeue, .schedule true]
    s.maps = [] ∧ s.queue = [1] ∧ s.calls = [(0, [])] ∧
      ∃ a, MapUpdater.step 1 (fun _ : ℕ => []) s a ≠ s :=
  ⟨rfl, rfl, rfl, no_deadlock [.schedule true, .dequeue, .schedule true] Nat.one_pos
    (.inr (by decide))⟩

end MapUpdater

end MistyWorld
