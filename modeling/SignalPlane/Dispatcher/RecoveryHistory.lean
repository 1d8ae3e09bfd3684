/-
SignalPlane.Dispatcher.RecoveryHistory — what an interrupted recovery leaves
in its own tables.

A recovery writes `recovery_runs`, `recovery_jobs` and
`recovery_reconciliations`. The messages it replays and the broker answers it
stores do not touch them (`SameTables`), so what holds of them is decided by
four transactions: the marker, the freeze, the evidence of a job and the end.
`History` is what they keep. It holds at every moment of every execution of
`Runner.Run` after `BeginRecovery`, and so in the store that an interruption
leaves (`recoverFrom_history`).
-/
import SignalPlane.Lib.Interleaving
import SignalPlane.Dispatcher.CIEvent
import SignalPlane.Dispatcher.JobPrograms
import SignalPlane.Dispatcher.MarkerTheorems
import SignalPlane.Dispatcher.ReconcileTheorems

namespace SignalPlane.Dispatcher

open Workflow

variable {jobs : List Job} {id : GoString} {opts : RecoveryOptions}

/-! ## Transactions outside the recovery tables -/

/-- The recovery tables are unchanged. -/
structure SameTables (s s' : Store) : Prop where
  runs : s'.recoveryRuns = s.recoveryRuns
  frozen : s'.recoveryJobs = s.recoveryJobs
  evidence : s'.recoveryReconciliations = s.recoveryReconciliations

theorem SameTables.refl (s : Store) : SameTables s s := ⟨rfl, rfl, rfl⟩

/-- The program leaves the recovery tables alone. -/
abbrev LeavesTables {α : Type} (p : Dispatch α) : Prop :=
  Conforms (fun _ => True) SameTables SameTables p

section Programs

variable {env : Env} {job : Job} {now : Int}

theorem JobWrites.sameTables {j due : Int} {s s' : Store} (h : JobWrites j due s s') :
    SameTables s s' := by
  cases h <;> exact ⟨rfl, rfl, rfl⟩

theorem JobEnd.sameTables {s s' : Store} (h : JobEnd env now job s s') : SameTables s s' := by
  cases h with
  | writes h => exact h.sameTables
  | queues _ h =>
    obtain ⟨-, body, -, hstore⟩ := queueTerminalResult_ok.mp h
    obtain ⟨-, rfl⟩ := storeTerminalResult_ok hstore
    exact ⟨rfl, rfl, rfl⟩
  | begins _ h =>
    simp only [beginCIWait, require_bind_eq_ok, pure_eq_ok] at h
    obtain ⟨-, -, -, rfl⟩ := h
    exact ⟨rfl, rfl, rfl⟩

theorem WorksOn.leavesTables {α : Type} {p : Dispatch α} (h : WorksOn env now job p) :
    LeavesTables p :=
  Conforms.mono h (fun _ _ => trivial) (fun _ _ h => h.elim fun _ => JobWrites.sameTables)
    fun _ _ => JobEnd.sameTables

/-- A message leaves the recovery tables alone; the replay evidence is a table of its own. -/
theorem process_leavesTables (recoveryID : GoString) (delivery : Delivery) :
    LeavesTables (process env recoveryID delivery now) := by
  have hwakes : ∀ signal, LeavesTables (recordWakes env signal now) := by
    intro signal
    have rest : ∀ k : Except GoError Bool → Dispatch (Except GoError Unit),
        (∀ v, LeavesTables (k v)) →
        LeavesTables (atomic (recordRepositoryRunExternalWake env.lib signal now) >>= k) := by
      refine fun k hk => conforms_atomic .refl (fun s v s' h => ⟨?_, hk (.ok v)⟩) fun e =>
        hk (.error e)
      obtain ⟨_, _, rfl⟩ := recordRepositoryRunExternalWake_frame h
      exact ⟨rfl, rfl, rfl⟩
    unfold recordWakes
    split
    · split
      · refine conforms_atomic .refl (fun s _ s' h => ⟨?_, rest _ fun v => ?_⟩)
          fun _ => conforms_pure
        · obtain ⟨_, _, _, rfl⟩ := recordCIEvent_frame h
          exact ⟨rfl, rfl, rfl⟩
        · cases v <;> exact conforms_pure
      · refine rest _ fun v => ?_
        cases v <;> exact conforms_pure
    · exact conforms_pure
  unfold process
  split
  · exact conforms_pure
  split
  · exact conforms_pure
  split
  · exact conforms_pure
  refine conforms_bind (hwakes _) fun v => ?_
  cases v with
  | error e => exact conforms_pure
  | ok _ =>
    refine conforms_commit .refl (fun s s' h => ?_) fun v => ?_
    · obtain ⟨_, _, _, _, rfl⟩ := record_frame h
      exact ⟨rfl, rfl, rfl⟩
    · cases v with
      | error e => exact conforms_pure
      | ok _ =>
        dsimp only
        split <;> exact conforms_pure

theorem replayMessages_leavesTables (recoveryID : GoString) (clock : RecoveryClock) (pending : Nat)
    (backlog : List (Except GoError Delivery)) (i : Nat) :
    LeavesTables (replayMessages env recoveryID clock pending backlog i) := by
  induction backlog generalizing i with
  | nil => exact conforms_pure
  | cons fetched backlog ih =>
    cases fetched with
    | error e => exact conforms_pure
    | ok delivery =>
      refine conforms_bind (process_leavesTables _ _) fun v => ?_
      cases v with
      | error e => exact conforms_pure
      | ok _ => exact ih (i + 1)

end Programs

/-! ## The history of a recovery -/

/-- The frozen jobs of a recovery. -/
def Store.frozenJobs (s : Store) (id : GoString) : List RecoveryJobRow :=
  s.recoveryJobs.rows.filter (fun r => r.recoveryID = id)

/-- The rows that recovery `id` would restore. -/
def Store.restoredRows (s : Store) : List JobRow :=
  s.jobs.rows.filter (fun r => r.status.isRestored)

/-- Every restored row is launched and has a run: the check of the dry run. -/
def Store.AllLaunched (s : Store) : Prop :=
  ∀ r ∈ s.restoredRows, r.status = .launched ∧ r.brokerRunID ≠ []

/-- The tables of recovery `id` fit together: nothing is frozen before the freeze, what is frozen
was launched with a run, and evidence is about frozen jobs. -/
structure RecoveryTables (id : GoString) (s : Store) : Prop where
  unfrozen : (∀ run, s.recoveryRuns.find? id = some run → run.restoredJobCount < 0) →
    s.frozenJobs id = []
  count : ∀ run, s.recoveryRuns.find? id = some run → run.restoredJobCount < 0 →
    run.restoredJobCount = -1
  launched : ∀ f ∈ s.frozenJobs id, f.priorStatus = .launched ∧ f.brokerRunID ≠ []
  evidence : ∀ c ∈ s.recoveryReconciliations.rows, c.recoveryID = id →
    (s.recoveryJobs.find? (id, c.jobID)).isSome = true

/-- The marker of the options is there, and no other recovery is open. -/
structure Begun (opts : RecoveryOptions) (s : Store) : Prop where
  marker : ∃ run, s.recoveryRuns.find? opts.recoveryID = some run ∧ run.durable = opts.durable ∧
    run.manifestSequence = opts.manifestSequence ∧ run.startSequence = opts.manifestSequence + 1
  others : ∀ r ∈ s.recoveryRuns.rows, r.recoveryID ≠ opts.recoveryID → r.status ≠ .incomplete

/-- What a recovery that began leaves in its tables, whatever happened to it since. -/
structure History (opts : RecoveryOptions) (s : Store) : Prop where
  tables : RecoveryTables opts.recoveryID s
  begun : Begun opts s

theorem History.of_same {s s' : Store} (h : History opts s) (hs : SameTables s s') :
    History opts s' := by
  obtain ⟨hruns, hfrozen, hevidence⟩ := hs
  obtain ⟨⟨hunfrozen, hcount, hlaunched, hfacts⟩, ⟨hmarker, hothers⟩⟩ := h
  simp only [Store.frozenJobs] at hunfrozen hlaunched
  refine ⟨⟨?_, ?_, ?_, ?_⟩, ⟨?_, ?_⟩⟩
  · rwa [Store.frozenJobs, hruns, hfrozen]
  · rwa [hruns]
  · rwa [Store.frozenJobs, hfrozen]
  · rwa [hevidence, hfrozen]
  · rwa [hruns]
  · rwa [hruns]

/-- A rewrite of the markers that changes neither parameters nor counts, and opens none. -/
theorem History.of_markers {s : Store} (h : History opts s) {runs : Table RecoveryRunRow.recoveryID}
    (f : RecoveryRunRow → RecoveryRunRow) (hrows : runs.rows = s.recoveryRuns.rows.map f)
    (hf : ∀ r, (f r).recoveryID = r.recoveryID ∧ (f r).durable = r.durable ∧
      (f r).manifestSequence = r.manifestSequence ∧ (f r).startSequence = r.startSequence ∧
      (f r).restoredJobCount = r.restoredJobCount ∧
      ((f r).status = .incomplete → r.status = .incomplete)) :
    History opts { s with recoveryRuns := runs } := by
  -- Every marker is found as before, rewritten.
  have hfind : ∀ id, runs.find? id = (s.recoveryRuns.find? id).map f := by
    intro id
    have hruns : runs = s.recoveryRuns.update (fun _ => true) f (fun r => (hf r).1) :=
      Table.ext (by simp [Table.update, hrows])
    rw [hruns, Table.find?_update]
    rfl
  obtain ⟨⟨hunfrozen, hcount, hlaunched, hfacts⟩, ⟨hmarker, hothers⟩⟩ := h
  refine ⟨⟨fun hneg => hunfrozen fun run hrun => ?_, fun run hrun hneg => ?_, hlaunched, hfacts⟩,
    ⟨?_, fun r hr hne hopen => ?_⟩⟩
  · have := hneg (f run) (by rw [hfind, hrun, Option.map_some])
    rwa [(hf run).2.2.2.2.1] at this
  · rw [hfind] at hrun
    obtain ⟨run0, hrun0, rfl⟩ := Option.map_eq_some_iff.mp hrun
    rw [(hf run0).2.2.2.2.1] at hneg ⊢
    exact hcount run0 hrun0 hneg
  · obtain ⟨run, hrun, hdurable, hmanifest, hstart⟩ := hmarker
    refine ⟨f run, by rw [hfind, hrun, Option.map_some], ?_, ?_, ?_⟩
    · rw [(hf run).2.1, hdurable]
    · rw [(hf run).2.2.1, hmanifest]
    · rw [(hf run).2.2.2.1, hstart]
  · rw [hrows] at hr
    obtain ⟨r0, hr0, rfl⟩ := List.mem_map.mp hr
    exact hothers r0 hr0 ((hf r0).1 ▸ hne) ((hf r0).2.2.2.2.2 hopen)

section Transactions

variable {s s' : Store} {now : Int}

theorem failRecovery_history (h : History opts s) (failure : GoError) :
    History opts (failRecovery opts.recoveryID failure s) := by
  refine h.of_markers _ rfl fun r => ?_
  split <;> exact ⟨rfl, rfl, rfl, rfl, rfl, id⟩

theorem completeRecovery_history {expected : Nat} (h : History opts s)
    (hcomplete : completeRecovery opts.recoveryID expected now s = .ok s') : History opts s' := by
  simp only [completeRecovery, require_bind_eq_ok, expectOne_bind_eq_ok, pure_eq_ok] at hcomplete
  obtain ⟨-, -, rfl⟩ := hcomplete
  refine h.of_markers _ rfl fun r => ?_
  split
  · exact ⟨rfl, rfl, rfl, rfl, rfl, fun hopen => by cases hopen⟩
  · exact ⟨rfl, rfl, rfl, rfl, rfl, id⟩

/-- Evidence about a frozen job keeps the history. -/
theorem recordReconciliation_history {job : Job} {brokerStatus : GoString} {state : JobStatus}
    (h : History opts s) (hfrozen : (s.recoveryJobs.find? (opts.recoveryID, job.id)).isSome = true)
    (hrecord : recordReconciliation opts.recoveryID job brokerStatus state now s = .ok s') :
    History opts s' ∧ s'.recoveryJobs = s.recoveryJobs := by
  obtain ⟨-, -, ⟨-, rfl⟩ | ⟨-, -, -, rfl⟩⟩ := recordReconciliation_ok.mp hrecord
  · exact ⟨h, rfl⟩
  · obtain ⟨⟨hunfrozen, hcount, hlaunched, hfacts⟩, hbegun⟩ := h
    exact ⟨⟨⟨hunfrozen, hcount, hlaunched, Table.forall_insert hfacts fun _ => hfrozen⟩,
      ⟨hbegun.1, hbegun.2⟩⟩, rfl⟩

/-! ## The freeze -/

/-- The frozen jobs once the recovery has frozen them: those there are, or the restored rows. -/
def Store.pendingJobs (s : Store) (id : GoString) : List RecoveryJobRow :=
  if (s.recoveryRuns.find? id).any (fun run => run.restoredJobCount < 0) then
    s.restoredRows.map (JobRow.toRecoveryJob id)
  else s.frozenJobs id

/-- Nothing of recovery `id` is frozen, so none of its keys is taken. -/
theorem find?_frozen_eq_none (h : s.frozenJobs id = []) (j : Int) :
    s.recoveryJobs.find? (id, j) = none := by
  refine Table.find?_eq_none.mpr fun r hr hkey => ?_
  have hid : r.recoveryID = id := (Prod.mk.inj hkey).1
  have hmem : r ∈ s.frozenJobs id := List.mem_filter.mpr ⟨hr, by simp [hid]⟩
  rw [h] at hmem
  cases hmem

/-- The rows of the frozen jobs when the freeze is new. -/
theorem rows_freeze (h : s.frozenJobs id = []) :
    ((s.restoredRows.map (JobRow.toRecoveryJob id)).foldl (fun t r => t.insert r)
      s.recoveryJobs).rows = s.recoveryJobs.rows ++ s.restoredRows.map (JobRow.toRecoveryJob id)
  := by
  refine Table.rows_foldl_insert ?_ fun r hr => ?_
  · rw [List.map_map]
    have hkey : RecoveryJobRow.key ∘ JobRow.toRecoveryJob id = (fun j => (id, j)) ∘ JobRow.id := rfl
    have hnodup : (s.restoredRows.map JobRow.id).Nodup :=
      s.jobs.nodup.sublist (List.filter_sublist.map _)
    rw [hkey, ← List.map_map]
    exact hnodup.map fun _ _ he => (Prod.mk.inj he).2
  · obtain ⟨r0, -, rfl⟩ := List.mem_map.mp hr
    exact find?_frozen_eq_none h _

/-- An open recovery whose restored rows are launched freezes its jobs. -/
theorem freezeRecoveryJobs_spec (h : History opts s) (hlaunched : s.AllLaunched)
    {run : RecoveryRunRow} (hrun : s.recoveryRuns.find? opts.recoveryID = some run)
    (hopen : run.status = .incomplete) :
    ∃ runs frozen, freezeRecoveryJobs opts.recoveryID s =
        .ok { s with recoveryRuns := runs, recoveryJobs := frozen } ∧
      History opts { s with recoveryRuns := runs, recoveryJobs := frozen } ∧
      frozen.rows.filter (fun r => r.recoveryID = opts.recoveryID) =
        s.pendingJobs opts.recoveryID ∧
      runs.hits opts.recoveryID (fun r => r.status = .incomplete) = true := by
  have hmarker : (s.recoveryRuns.find? opts.recoveryID).filter (fun r => r.status = .incomplete) =
      some run := by simp [hrun, Option.filter, hopen]
  unfold freezeRecoveryJobs
  simp only [hmarker]
  by_cases hneg : run.restoredJobCount < 0
  case neg =>
    refine ⟨s.recoveryRuns, s.recoveryJobs, by rw [if_neg hneg]; rfl, h, ?_, ?_⟩
    · simp [Store.pendingJobs, hrun, hneg, Store.frozenJobs]
    · exact Table.hits_iff.mpr ⟨run, hrun, by simp [hopen]⟩
  obtain ⟨⟨hunfrozen, hcount, -, hfacts⟩,
    ⟨⟨run', hrun', hdurable, hmanifest, hstart⟩, hothers⟩⟩ := h
  obtain rfl : run = run' := Option.mem_unique hrun hrun'
  have hempty : s.frozenJobs opts.recoveryID = [] := hunfrozen fun run' hrun' => by
    rwa [← Option.mem_unique hrun hrun']
  have hminus : run.restoredJobCount = -1 := hcount run hrun hneg
  have hrows := rows_freeze hempty
  have hnew : ∀ r ∈ s.restoredRows.map (JobRow.toRecoveryJob opts.recoveryID),
      s.recoveryJobs.find? r.key = none := by
    intro r hr
    obtain ⟨r0, -, rfl⟩ := List.mem_map.mp hr
    exact find?_frozen_eq_none hempty _
  generalize hfrozen : (s.restoredRows.map (JobRow.toRecoveryJob opts.recoveryID)).foldl
    (fun t r => t.insert r) s.recoveryJobs = frozen at hrows
  let count : Int := frozen.rows.countP (fun r => r.recoveryID = opts.recoveryID)
  let runs := s.recoveryRuns.updateKey opts.recoveryID (fun r => r.restoredJobCount = -1)
    (fun r => { r with restoredJobCount := count }) (fun _ => rfl)
  have hfind : runs.find? opts.recoveryID = some { run with restoredJobCount := count } := by
    simp only [runs, Table.find?_updateKey_self, hrun, Option.map_some, hminus, decide_true,
      if_true]
  have hfilter : frozen.rows.filter (fun r => r.recoveryID = opts.recoveryID) =
      s.restoredRows.map (JobRow.toRecoveryJob opts.recoveryID) := by
    rw [hrows, List.filter_append]
    have hold : s.recoveryJobs.rows.filter (fun r => r.recoveryID = opts.recoveryID) = [] := hempty
    rw [hold, List.nil_append, List.filter_eq_self]
    intro r hr
    obtain ⟨r0, -, rfl⟩ := List.mem_map.mp hr
    simp [JobRow.toRecoveryJob]
  refine ⟨runs, frozen, ?_, ⟨⟨fun hall => ?_, fun run' hrun' hneg' => ?_, fun f hf => ?_,
    fun c hc hid => ?_⟩,
    ⟨⟨_, hfind, hdurable, hmanifest, hstart⟩, fun r hr hne hstatus => ?_⟩⟩, ?_, ?_⟩
  · rw [if_pos hneg]
    simp only [require_bind_eq_ok]
    refine ⟨hnew, ?_⟩
    subst hfrozen
    rfl
  · exact absurd (hall _ hfind) (by simp [count])
  · obtain rfl : _ = run' := Option.mem_unique hfind hrun'
    exact absurd hneg' (by simp [count])
  · have hf' : f ∈ s.restoredRows.map (JobRow.toRecoveryJob opts.recoveryID) := hfilter ▸ hf
    obtain ⟨r, hr, rfl⟩ := List.mem_map.mp hf'
    exact hlaunched r hr
  · -- Before the freeze there is no evidence.
    have hsome := hfacts c hc hid
    rw [find?_frozen_eq_none hempty] at hsome
    cases hsome
  · obtain ⟨r0, hr0, rfl⟩ := List.mem_map.mp hr
    split at hne <;> rename_i hhit
    · exact hne (by simpa using (Bool.and_eq_true_iff.mp hhit).1)
    · rw [if_neg hhit] at hstatus
      exact hothers r0 hr0 hne hstatus
  · simp only [Store.pendingJobs, hrun, Option.any_some, decide_eq_true hneg, if_true]
    exact hfilter
  · exact Table.hits_iff.mpr ⟨_, hfind, by simp [hopen]⟩

/-- The jobs a recovery works on, in the order of their ids. -/
def frozenInOrder (frozen : List RecoveryJobRow) : List Job :=
  (frozen.insertionSort (fun a b => a.jobID ≤ b.jobID)).map RecoveryJobRow.toJob

theorem mem_frozenInOrder {frozen : List RecoveryJobRow} {job : Job} :
    job ∈ frozenInOrder frozen ↔ ∃ f ∈ frozen, f.toJob = job := by
  simp [frozenInOrder, List.mem_insertionSort]

theorem prepareRecoveryJobs_ok : prepareRecoveryJobs id s = .ok (jobs, s') ↔
      freezeRecoveryJobs id s = .ok s' ∧ frozenInOrder (s'.frozenJobs id) = jobs := by
  simp only [prepareRecoveryJobs, bind_eq_ok, pure_eq_ok, Prod.mk.injEq]
  constructor
  · rintro ⟨s1, hfreeze, hjobs, rfl⟩
    exact ⟨hfreeze, hjobs⟩
  · rintro ⟨hfreeze, hjobs⟩
    exact ⟨s', hfreeze, hjobs, rfl⟩

/-- The job of every frozen row is under its key. -/
theorem find?_of_mem_frozen {f : RecoveryJobRow} (hf : f ∈ s.frozenJobs id) :
    s.recoveryJobs.find? (id, f.toJob.id) = some f := by
  obtain ⟨hmem, hid⟩ := List.mem_filter.mp hf
  have hkey : f.key = (id, f.toJob.id) := Prod.ext (by simpa using hid) rfl
  exact hkey ▸ Table.find?_key hmem

theorem prepareRecoveryJobs_history (h : History opts s) (hlaunched : s.AllLaunched)
    (hprepare : prepareRecoveryJobs opts.recoveryID s = .ok (jobs, s')) : History opts s' ∧
      ∀ job ∈ jobs, (s'.recoveryJobs.find? (opts.recoveryID, job.id)).isSome = true := by
  obtain ⟨hfreeze, rfl⟩ := prepareRecoveryJobs_ok.mp hprepare
  obtain ⟨run, hrun, hopen⟩ : ∃ run, s.recoveryRuns.find? opts.recoveryID = some run ∧
      run.status = .incomplete := by
    cases hrun : s.recoveryRuns.find? opts.recoveryID with
    | none => simp [freezeRecoveryJobs, hrun] at hfreeze
    | some run =>
      refine ⟨run, rfl, ?_⟩
      by_contra hclosed
      simp [freezeRecoveryJobs, hrun, Option.filter, hclosed] at hfreeze
  obtain ⟨runs, frozen, hfreeze', hhistory, -, -⟩ := freezeRecoveryJobs_spec h hlaunched hrun hopen
  obtain rfl : _ = s' := Except.ok.inj (hfreeze'.symm.trans hfreeze)
  refine ⟨hhistory, fun job hjob => ?_⟩
  obtain ⟨f, hf, rfl⟩ := mem_frozenInOrder.mp hjob
  rw [find?_of_mem_frozen hf]
  rfl

end Transactions

/-! ## Every moment of a recovery -/

section Moments

variable {env : Env} {stream : ReplayStream} {clock : RecoveryClock} {report : RecoveryReport}
  {s s' : Store}

/-- Nobody else writes while a recovery runs. -/
def nobody (_ _ : Store) : Prop := False

theorem eq_of_nobody (h : Relation.ReflTransGen nobody s s') : s' = s := by
  induction h with
  | refl => rfl
  | tail _ hstep _ => exact hstep.elim

/-- Nobody interferes, and the history is kept. -/
def historyContract (opts : RecoveryOptions) : Contract Store Request Request.Answer where
  rely := nobody
  guarantee _ _ := True
  inv := History opts
  asks _ _ := True
  answers _ _ := True
  kept _ h := h.elim
  unchanged _ := trivial

/-- Started in `s`, the program keeps the history and ends in `Q`. -/
abbrev KeepsHistory (opts : RecoveryOptions) {α : Type} (p : Dispatch α) (s : Store)
    (Q : Store → Prop) : Prop :=
  Honours (historyContract opts) p s fun _ => Q

/-- The frozen jobs stay frozen. -/
def Frozen (id : GoString) (jobs : List Job) (s : Store) : Prop :=
  ∀ job ∈ jobs, (s.recoveryJobs.find? (id, job.id)).isSome = true

theorem keepsHistory_pure {α : Type} {a : α} {Q : Store → Prop} (h : Q s) :
    KeepsHistory opts (pure a : Dispatch α) s Q :=
  honours_pure fun _ hs1 _ => eq_of_nobody hs1 ▸ h

theorem recordState_keepsHistory {job : Job} (hjob : job ∈ jobs) (brokerStatus : GoString)
    (context : String) (v : Except GoError JobStatus) (hfrozen : Frozen opts.recoveryID jobs s) :
    KeepsHistory opts (recordState opts.recoveryID clock job brokerStatus context v) s
      (Frozen opts.recoveryID jobs) := by
  cases v with
  | error e => exact keepsHistory_pure hfrozen
  | ok state =>
    refine honours_commit (fun s1 s2 hs1 hI hs2 => ?_) fun s1 e hs1 _ _ => ?_
    · obtain rfl := eq_of_nobody hs1
      obtain ⟨hhistory, hsame⟩ := recordReconciliation_history hI (hfrozen job hjob) hs2
      refine ⟨hhistory, trivial, keepsHistory_pure fun job' hjob' => ?_⟩
      rw [hsame]
      exact hfrozen job' hjob'
    · obtain rfl := eq_of_nobody hs1
      exact keepsHistory_pure hfrozen

/-- Programs outside the recovery tables keep the history, and the jobs stay frozen. -/
theorem LeavesTables.keepsHistory {α : Type} {p : Dispatch α} (hp : LeavesTables p)
    (hfrozen : Frozen opts.recoveryID jobs s) :
    KeepsHistory opts p s (Frozen opts.recoveryID jobs) := by
  have hsame : ∀ s1 s2, History opts s1 → Frozen opts.recoveryID jobs s1 → SameTables s1 s2 →
      History opts s2 ∧ True ∧ Frozen opts.recoveryID jobs s2 := by
    intro s1 s2 hhistory hfrozen hsame
    refine ⟨hhistory.of_same hsame, trivial, fun job hjob => ?_⟩
    rw [hsame.frozen]
    exact hfrozen job hjob
  exact Conforms.honours hp hfrozen (fun _ _ _ => trivial) (fun _ _ h => h.elim) (fun _ h => h)
    hsame hsame

theorem reconcileJob_keepsHistory {job : Job} (hjob : job ∈ jobs) (hhistory : History opts s)
    (hfrozen : Frozen opts.recoveryID jobs s) :
    KeepsHistory opts (reconcileJob env opts.recoveryID clock job) s
      (Frozen opts.recoveryID jobs) := by
  unfold reconcileJob
  refine honours_request (fun _ _ _ => trivial) fun answer _ => ?_
  split
  · exact honours_bind hhistory
      ((reconcileStatusFailure_worksOn _).leavesTables.keepsHistory hfrozen)
      fun v s1 _ hfrozen1 => recordState_keepsHistory hjob _ _ v hfrozen1
  · exact honours_bind hhistory
      ((reconcileStatusResult_worksOn _ _).leavesTables.keepsHistory hfrozen)
      fun v s1 _ hfrozen1 => recordState_keepsHistory hjob _ _ v hfrozen1

theorem reconcileJobs_keepsHistory {rest : List Job} (hrest : ∀ job ∈ rest, job ∈ jobs)
    (hhistory : History opts s) (hfrozen : Frozen opts.recoveryID jobs s) :
    KeepsHistory opts (reconcileJobs env opts.recoveryID clock rest) s fun _ => True := by
  induction rest generalizing s with
  | nil => exact honours_done
  | cons job rest ih =>
    refine honours_bind hhistory
      (reconcileJob_keepsHistory (hrest job List.mem_cons_self) hhistory hfrozen) ?_
    intro v s1 hhistory1 hfrozen1
    cases v with
    | error e => exact honours_done
    | ok _ => exact ih (fun j hj => hrest j (List.mem_cons_of_mem _ hj)) hhistory1 hfrozen1

theorem finishRecovery_keepsHistory (jobs : List Job) :
    KeepsHistory opts (finishRecovery opts.recoveryID clock report jobs) s fun _ => True := by
  unfold finishRecovery
  refine honours_commit (fun s1 s2 _ hI hs2 => ?_) fun _ _ _ _ _ => honours_done
  refine ⟨completeRecovery_history hI hs2, trivial, ?_⟩
  refine honours_atomic (fun s3 evidence s4 _ hI3 hs4 => ?_) fun _ _ _ _ _ => honours_done
  obtain rfl : s3 = s4 := by
    revert hs4
    cases recoveryEvidence opts.recoveryID s3 <;> simp [Except.map]
  refine ⟨hI3, trivial, ?_⟩
  dsimp only
  split <;> exact honours_done

/-- After `BeginRecovery` every transaction of a recovery keeps the history. -/
theorem recoverFrom_keepsHistory (hhistory : History opts s) (hlaunched : s.AllLaunched) :
    KeepsHistory opts (recoverFrom env stream clock opts report) s fun _ => True := by
  have hjobs : KeepsHistory opts (recoverJobs env stream clock opts report) s fun _ => True := by
    unfold recoverJobs
    refine honours_atomic (fun s1 jobs s2 hs1 hI hs2 => ?_) fun _ _ _ _ _ => honours_done
    obtain rfl := eq_of_nobody hs1
    obtain ⟨hhistory2, hfrozen⟩ := prepareRecoveryJobs_history hI hlaunched hs2
    refine ⟨hhistory2, trivial, ?_⟩
    dsimp only
    split
    · exact honours_done
    refine honours_bind hhistory2
      (LeavesTables.keepsHistory (replayMessages_leavesTables _ _ _ _ _) hfrozen) ?_
    intro v s3 hhistory3 hfrozen3
    cases v with
    | error e => exact honours_done
    | ok _ =>
      refine honours_bind hhistory3
        (reconcileJobs_keepsHistory (fun _ hj => hj) hhistory3 hfrozen3) ?_
      intro v s4 _ _
      cases v with
      | error e => exact honours_done
      | ok _ => exact finishRecovery_keepsHistory jobs
  refine honours_bind hhistory hjobs ?_
  intro v s1 _ _
  cases v with
  | error e =>
    exact honours_perform fun s2 _ hI => ⟨failRecovery_history hI e, trivial, honours_done⟩
  | ok _ => exact honours_done

/-- Wherever a recovery is interrupted, the store it leaves has its history. -/
theorem recoverFrom_history (hhistory : History opts s) (hlaunched : s.AllLaunched)
    (hinterrupted : Interleaved nobody (recoverFrom env stream clock opts report) s s') :
    History opts s' :=
  ((recoverFrom_keepsHistory hhistory hlaunched).interleaved hhistory (fun _ _ => trivial)
    hinterrupted).1

end Moments

end SignalPlane.Dispatcher
