/-
SignalPlane.Dispatcher.MarkerTheorems — the markers of recoveries
(`recovery_runs`).

A recovery is open while its row is `incomplete`, and an open recovery blocks
launches. `BeginRecovery` writes its row before it looks for another open
one, outside a transaction, so a call that is refused can leave a second open
row behind. `Admissible` names the calls that cannot: under a new id, with
parameters that pass the earlier checks, no recovery may be open. Nothing
more is needed, and nothing less is enough (`recoveryMarkers_iff`).
-/
import SignalPlane.Dispatcher.Recovery

namespace SignalPlane.Dispatcher

variable {s : Store} {id : GoString} {manifestSequence : Nat}

/-! ## Calls -/

/-- A call that can write `recovery_runs`. -/
inductive RecoveryCall where
  | beginRecovery (id durable : GoString) (manifestSequence : Nat) (now : Int)
  | failRecovery (id : GoString) (failure : GoError)
  | completeRecovery (id : GoString) (expectedReconciliations : Nat) (now : Int)

/-- The store after the call, whether it succeeds or not. -/
def RecoveryCall.step (s : Store) : RecoveryCall → Store
  | .beginRecovery id durable manifestSequence now =>
    (Dispatcher.beginRecovery id durable manifestSequence now s).2
  | .failRecovery id failure => Dispatcher.failRecovery id failure s
  | .completeRecovery id expected now =>
    match Dispatcher.completeRecovery id expected now s with
    | .ok s' => s'
    | .error _ => s

/-- The store after a sequence of calls. -/
def RecoveryCall.run (calls : List RecoveryCall) (s : Store) : Store :=
  calls.foldl RecoveryCall.step s

/-- At most one recovery is open. -/
def Store.MarkersExclusive (s : Store) : Prop :=
  ∀ r ∈ s.recoveryRuns.rows, ∀ r' ∈ s.recoveryRuns.rows,
    r.status = .incomplete → r'.status = .incomplete → r = r'

/-- The parameters pass the checks of `BeginRecovery` before its first statement, and the driver
takes the two sequences of that statement. -/
abbrev Store.Opens (s : Store) (id durable : GoString) (manifestSequence : Nat) : Prop :=
  id ≠ [] ∧ durable ≠ [] ∧ s.checkpoint = manifestSequence ∧ manifestSequence + 1 < 2 ^ 63

/-- A refused `BeginRecovery` leaves the markers as they were. -/
def RecoveryCall.RefusedClean (s : Store) : RecoveryCall → Prop
  | .beginRecovery id durable manifestSequence now =>
    ∀ e, (Dispatcher.beginRecovery id durable manifestSequence now s).1 = .error e →
      (Dispatcher.beginRecovery id durable manifestSequence now s).2.recoveryRuns = s.recoveryRuns
  | _ => True

/-- The condition on a call and the state it finds: a new id with valid parameters comes when no
recovery is open. -/
def RecoveryCall.Admissible (s : Store) : RecoveryCall → Prop
  | .beginRecovery id durable manifestSequence _ =>
    s.Opens id durable manifestSequence → s.recoveryRuns.find? id = none →
      ∀ r ∈ s.recoveryRuns.rows, r.status ≠ .incomplete
  | _ => True

/-- Every call of the sequence is admissible in the state it finds. -/
def RecoveryCall.AdmissibleRun : List RecoveryCall → Store → Prop
  | [], _ => True
  | call :: calls, s => call.Admissible s ∧ AdmissibleRun calls (call.step s)

instance (s : Store) : Decidable s.MarkersExclusive :=
  inferInstanceAs (Decidable (∀ r ∈ s.recoveryRuns.rows, ∀ r' ∈ s.recoveryRuns.rows,
    r.status = .incomplete → r'.status = .incomplete → r = r'))

instance (s : Store) (call : RecoveryCall) : Decidable (call.Admissible s) :=
  match call with
  | .beginRecovery id durable manifestSequence _ =>
    inferInstanceAs (Decidable (s.Opens id durable manifestSequence →
      s.recoveryRuns.find? id = none → ∀ r ∈ s.recoveryRuns.rows, r.status ≠ .incomplete))
  | .failRecovery _ _ => isTrue trivial
  | .completeRecovery _ _ _ => isTrue trivial

instance decidableAdmissibleRun :
    (calls : List RecoveryCall) → (s : Store) → Decidable (RecoveryCall.AdmissibleRun calls s)
  | [], _ => isTrue trivial
  | call :: calls, s =>
    have := decidableAdmissibleRun calls (call.step s)
    inferInstanceAs (Decidable (call.Admissible s ∧ RecoveryCall.AdmissibleRun calls (call.step s)))

/-! ## What `BeginRecovery` does -/

variable {durable : GoString} {now : Int}

/-- The row of a new recovery. -/
def newMarker (id durable : GoString) (manifestSequence : Nat) (now : Int) : RecoveryRunRow where
  recoveryID := id
  durable := durable
  manifestSequence := manifestSequence
  startSequence := manifestSequence + 1
  status := .incomplete
  startedAt := Clock.unixMilli now

/-- The markers once a recovery has written its own. -/
abbrev Store.marked (s : Store) (id durable : GoString) (manifestSequence : Nat) (now : Int) :
    Table RecoveryRunRow.recoveryID :=
  s.recoveryRuns.insert (newMarker id durable manifestSequence now)

/-- A call that fails the first checks is refused with nothing written. -/
theorem beginRecovery_refused (h : ¬ s.Opens id durable manifestSequence) (now : Int) :
    ∃ e, beginRecovery id durable manifestSequence now s = (.error e, s) := by
  unfold beginRecovery
  split
  · exact ⟨_, rfl⟩
  next hid =>
  split
  · exact ⟨_, rfl⟩
  next hcheckpoint =>
  split
  · exact ⟨_, rfl⟩
  next hsequence =>
  push Not at hid hcheckpoint hsequence
  exact absurd ⟨hid.1, hid.2, hcheckpoint, hsequence⟩ h

/-- Unless its first checks fail, the store after `BeginRecovery` has the marker. -/
theorem beginRecovery_store : (beginRecovery id durable manifestSequence now s).2 =
    if s.Opens id durable manifestSequence then
      { s with recoveryRuns := s.marked id durable manifestSequence now } else s := by
  split
  · next h =>
    rw [beginRecovery, if_neg (not_or.mpr ⟨h.1, h.2.1⟩), if_neg (not_not.mpr h.2.2.1),
      if_neg h.2.2.2.not_ge]
    dsimp only
    split_ifs <;> rfl
  · next h =>
    obtain ⟨e, he⟩ := beginRecovery_refused h now
    rw [he]

/-- The row that `BeginRecovery` checks, and what it requires of the others. -/
theorem beginRecovery_ok : (beginRecovery id durable manifestSequence now s).1 = .ok () ↔
      s.Opens id durable manifestSequence ∧
        (∃ run, (s.marked id durable manifestSequence now).find? id = some run ∧
          run.durable = durable ∧ run.manifestSequence = manifestSequence ∧
          run.startSequence = manifestSequence + 1 ∧ run.status = .incomplete) ∧
        ∀ r ∈ (s.marked id durable manifestSequence now).rows, r.recoveryID ≠ id →
          r.status ≠ .incomplete := by
  have hfind : (s.marked id durable manifestSequence now).find? id =
      some ((s.recoveryRuns.find? id).getD (newMarker id durable manifestSequence now)) :=
    (Table.find?_insert _ _ _).trans (if_pos rfl)
  -- A new marker is incomplete, so the exception for a fresh row is not one.
  have hclosed : ∀ run, run = (s.recoveryRuns.find? id).getD
      (newMarker id durable manifestSequence now) →
      ((run.status = .completed ∧ (s.recoveryRuns.find? id).isNone = false) ↔
        run.status ≠ .incomplete) := by
    rintro run rfl
    cases hrun : s.recoveryRuns.find? id with
    | none => simp [newMarker]
    | some run => cases hstatus : run.status <;> simp [hstatus]
  have hothers : (s.marked id durable manifestSequence now).rows.any
      (fun r => r.status = .incomplete && r.recoveryID ≠ id) = true ↔
      ¬ ∀ r ∈ (s.marked id durable manifestSequence now).rows,
        r.recoveryID ≠ id → r.status ≠ .incomplete := by
    simp [and_comm]
  rw [hfind]
  simp only [Option.some.injEq, exists_eq_left']
  have hstatus := hclosed _ rfl
  simp only [Store.marked, newMarker] at hothers hstatus ⊢
  by_cases hopens : s.Opens id durable manifestSequence
  · rw [beginRecovery, if_neg (not_or.mpr ⟨hopens.1, hopens.2.1⟩),
      if_neg (not_not.mpr hopens.2.2.1), if_neg hopens.2.2.2.not_ge]
    simp only [hstatus]
    split_ifs with hparameters hopen
    · exact iff_of_false (by simp) (by tauto)
    · exact iff_of_false (by simp) fun h => hothers.mp hopen h.2.2
    · push Not at hparameters
      exact iff_of_true rfl ⟨hopens, hparameters, not_not.mp fun h => hopen (hothers.mpr h)⟩
  · obtain ⟨e, he⟩ := beginRecovery_refused hopens now
    rw [he]
    exact iff_of_false (by simp) fun h => hopens h.1

/-- Parameters that fail the first checks, or an id that is taken, leave the store alone. -/
theorem beginRecovery_unchanged
    (h : ¬ (s.Opens id durable manifestSequence ∧ s.recoveryRuns.find? id = none)) :
    (beginRecovery id durable manifestSequence now s).2 = s := by
  rw [beginRecovery_store]
  split
  · next hchecks =>
    -- The checks passed, so the id is taken and the insertion does nothing.
    obtain ⟨run, hrun⟩ := Option.ne_none_iff_exists'.mp fun hnone => h ⟨hchecks, hnone⟩
    have hsame : s.marked id durable manifestSequence now = s.recoveryRuns :=
      Table.insert_of_find? hrun
    rw [hsame]
  · rfl

/-- With valid parameters and a new id the marker is written, and the call succeeds exactly when
no other recovery is open. -/
theorem beginRecovery_new (now : Int) (hopens : s.Opens id durable manifestSequence)
    (hnew : s.recoveryRuns.find? id = none) :
    (beginRecovery id durable manifestSequence now s).2.recoveryRuns.rows =
        s.recoveryRuns.rows ++ [newMarker id durable manifestSequence now] ∧
      ((∃ e, (beginRecovery id durable manifestSequence now s).1 = .error e) ↔
        ∃ r ∈ s.recoveryRuns.rows, r.status = .incomplete) := by
  have hrows : (s.marked id durable manifestSequence now).rows =
      s.recoveryRuns.rows ++ [newMarker id durable manifestSequence now] :=
    Table.rows_insert hnew
  have hfind : (s.marked id durable manifestSequence now).find? id =
      some (newMarker id durable manifestSequence now) := by
    simp [Table.find?_insert, newMarker, hnew]
  -- Every row that was there has another id.
  have hother : ∀ r ∈ s.recoveryRuns.rows, r.recoveryID ≠ id := Table.find?_eq_none.mp hnew
  have hok : (beginRecovery id durable manifestSequence now s).1 = .ok () ↔
      ∀ r ∈ s.recoveryRuns.rows, r.status ≠ .incomplete := by
    rw [beginRecovery_ok, hfind, hrows]
    constructor
    · rintro ⟨-, -, hall⟩ r hr
      exact hall r (List.mem_append_left _ hr) (hother r hr)
    · intro hnone
      refine ⟨hopens, ⟨_, rfl, rfl, rfl, rfl, rfl⟩, fun r hr hne => ?_⟩
      rcases List.mem_append.mp hr with hr | hr
      · exact hnone r hr
      · exact absurd (congrArg RecoveryRunRow.recoveryID (List.mem_singleton.mp hr)) hne
  refine ⟨?_, ?_⟩
  · rw [beginRecovery_store, if_pos hopens]
    exact hrows
  · cases hbegin : (beginRecovery id durable manifestSequence now s).1 with
    | ok _ => simpa using hok.mp hbegin
    | error e =>
      refine iff_of_true ⟨e, rfl⟩ ?_
      by_contra hnone
      push Not at hnone
      cases (hok.mpr hnone).symm.trans hbegin

/-! ## One step -/

/-- An update that opens no recovery keeps the markers exclusive. -/
theorem Store.MarkersExclusive.of_map {s' : Store} (hs : s.MarkersExclusive)
    (f : RecoveryRunRow → RecoveryRunRow) (hrows : s'.recoveryRuns.rows = s.recoveryRuns.rows.map f)
    (hopen : ∀ r, (f r).status = .incomplete → r.status = .incomplete) : s'.MarkersExclusive := by
  intro r hr r' hr' hstatus hstatus'
  rw [hrows] at hr hr'
  obtain ⟨r0, hr0, rfl⟩ := List.mem_map.mp hr
  obtain ⟨r1, hr1, rfl⟩ := List.mem_map.mp hr'
  rw [hs r0 hr0 r1 hr1 (hopen r0 hstatus) (hopen r1 hstatus')]

theorem failRecovery_exclusive {failure : GoError} (hs : s.MarkersExclusive) :
    (failRecovery id failure s).MarkersExclusive := by
  refine hs.of_map _ rfl fun r hr => ?_
  dsimp only at hr
  split_ifs at hr <;> exact hr

theorem completeRecovery_exclusive {expected : Nat} {now : Int} {s' : Store}
    (hs : s.MarkersExclusive) (h : completeRecovery id expected now s = .ok s') :
    s'.MarkersExclusive := by
  simp only [completeRecovery, require_bind_eq_ok, expectOne_bind_eq_ok, pure_eq_ok] at h
  obtain ⟨-, -, rfl⟩ := h
  refine hs.of_map _ rfl fun r hr => ?_
  dsimp only at hr
  split_ifs at hr
  exact hr

/-- Writing a marker keeps the markers exclusive exactly when none was open. -/
theorem exclusive_append_iff {s' : Store} {marker : RecoveryRunRow} (hid : marker.recoveryID = id)
    (hopen : marker.status = .incomplete) (hnew : s.recoveryRuns.find? id = none)
    (hrows : s'.recoveryRuns.rows = s.recoveryRuns.rows ++ [marker]) :
    s'.MarkersExclusive ↔ ∀ r ∈ s.recoveryRuns.rows, r.status ≠ .incomplete := by
  have hmem : ∀ r, r ∈ s'.recoveryRuns.rows ↔ r ∈ s.recoveryRuns.rows ∨ r = marker := by
    simp [hrows]
  constructor
  · intro hs' r hr hstatus
    have heq := hs' r ((hmem r).mpr (.inl hr)) marker ((hmem marker).mpr (.inr rfl)) hstatus hopen
    exact Table.find?_eq_none.mp hnew r hr (heq ▸ hid)
  · intro hnone r hr r' hr' hstatus hstatus'
    rcases (hmem r).mp hr with hr | rfl
    · exact absurd hstatus (hnone r hr)
    · rcases (hmem r').mp hr' with hr' | rfl
      · exact absurd hstatus' (hnone r' hr')
      · rfl

/-- A call keeps the markers exclusive and is refused without a trace exactly when it is
admissible. -/
theorem RecoveryCall.step_iff (hs : s.MarkersExclusive) (call : RecoveryCall) :
    (call.step s).MarkersExclusive ∧ call.RefusedClean s ↔ call.Admissible s := by
  cases call with
  | failRecovery id failure => exact iff_of_true ⟨failRecovery_exclusive hs, trivial⟩ trivial
  | completeRecovery id expected now =>
    refine iff_of_true ⟨?_, trivial⟩ trivial
    simp only [RecoveryCall.step]
    cases h : Dispatcher.completeRecovery id expected now s with
    | ok s' => exact completeRecovery_exclusive hs h
    | error e => exact hs
  | beginRecovery id durable manifestSequence now =>
    simp only [RecoveryCall.step, RecoveryCall.RefusedClean, RecoveryCall.Admissible]
    by_cases h : s.Opens id durable manifestSequence ∧ s.recoveryRuns.find? id = none
    · obtain ⟨hopens, hnew⟩ := h
      have hbegin := beginRecovery_new now hopens hnew
      have hiff := exclusive_append_iff rfl rfl hnew hbegin.1
      constructor
      · intro hgood _ _
        exact hiff.mp hgood.1
      · intro hadm
        have hnone := hadm hopens hnew
        refine ⟨hiff.mpr hnone, fun e he => ?_⟩
        obtain ⟨r, hr, hopen⟩ := hbegin.2.mp ⟨e, he⟩
        exact absurd hopen (hnone r hr)
    · rw [beginRecovery_unchanged h]
      exact iff_of_true ⟨hs, fun _ _ => rfl⟩ fun hopens hnew => absurd ⟨hopens, hnew⟩ h

/-! ## Every run -/

theorem RecoveryCall.run_exclusive {calls : List RecoveryCall} (hs : s.MarkersExclusive)
    (hcalls : AdmissibleRun calls s) : (RecoveryCall.run calls s).MarkersExclusive := by
  induction calls generalizing s with
  | nil => exact hs
  | cons call calls ih => exact ih ((call.step_iff hs).mpr hcalls.1).1 hcalls.2

/-- After any run of admissible calls at most one recovery is open, and the next call keeps it
so, leaving no marker when it is refused, exactly when it is admissible too. -/
theorem recoveryMarkers_iff (calls : List RecoveryCall) (s : Store) (hs : s.MarkersExclusive)
    (hcalls : RecoveryCall.AdmissibleRun calls s) :
    (RecoveryCall.run calls s).MarkersExclusive ∧ ∀ call : RecoveryCall,
      (call.step (RecoveryCall.run calls s)).MarkersExclusive ∧
          call.RefusedClean (RecoveryCall.run calls s) ↔
        call.Admissible (RecoveryCall.run calls s) :=
  have hrun := RecoveryCall.run_exclusive hs hcalls
  ⟨hrun, RecoveryCall.step_iff hrun⟩

namespace Sample

/-- A recovery that is begun and completed, before a second one begins. -/
def markers : List RecoveryCall :=
  [.beginRecovery (lit "first") (lit "dispatcher") 0 0, .failRecovery (lit "first") errNoRows,
    .completeRecovery (lit "first") 0 1, .beginRecovery (lit "second") (lit "dispatcher") 0 2]

/-- The second recovery, begun while the first is open. -/
def overlap : RecoveryCall := .beginRecovery (lit "second") (lit "dispatcher") 0 1

end Sample

open Sample in
theorem recoveryMarkers_iff_sequential :
    RecoveryCall.AdmissibleRun markers Store.empty ∧
      (RecoveryCall.run markers Store.empty).MarkersExclusive ∧
      (RecoveryCall.run markers Store.empty).recoveryRuns.rows.map RecoveryRunRow.status =
        [.completed, .incomplete] :=
  have hrun : RecoveryCall.AdmissibleRun markers Store.empty := by decide +kernel
  ⟨hrun, (recoveryMarkers_iff markers Store.empty (by decide +kernel) hrun).1, by decide +kernel⟩

open Sample in
/-- The overlapping call is refused and still leaves its marker; when the first recovery is
complete the launches stay blocked. -/
theorem recoveryMarkers_overlap :
    (RecoveryCall.run (markers.take 1) Store.empty).MarkersExclusive ∧
      ¬ overlap.RefusedClean (RecoveryCall.run (markers.take 1) Store.empty) ∧
      ¬ (overlap.step (RecoveryCall.run (markers.take 1) Store.empty)).MarkersExclusive ∧
      assertRecoveryComplete (lit "dispatcher") 0
          (RecoveryCall.run (markers.take 1 ++ [overlap] ++ (markers.drop 2).take 1) Store.empty) =
        .error (newError "dispatcher recovery is incomplete; launches are blocked") := by
  refine ⟨by decide +kernel, fun hclean => ?_, by decide +kernel, by decide +kernel⟩
  have hrefused : (beginRecovery (lit "second") (lit "dispatcher") 0 1
      (RecoveryCall.run (markers.take 1) Store.empty)).1 =
        .error (newError "another recovery is incomplete") := by decide +kernel
  have hrows : (beginRecovery (lit "second") (lit "dispatcher") 0 1
      (RecoveryCall.run (markers.take 1) Store.empty)).2.recoveryRuns ≠
        (RecoveryCall.run (markers.take 1) Store.empty).recoveryRuns := by decide +kernel
  exact hrows (hclean _ hrefused)

end SignalPlane.Dispatcher
