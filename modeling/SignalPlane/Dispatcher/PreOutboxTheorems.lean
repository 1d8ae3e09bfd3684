/-
SignalPlane.Dispatcher.PreOutboxTheorems — failures before a report exists.

The dispatcher reports such a failure with a result of its own
(`OwnFailure.result`). It passes validation and its comment renders as long as
the reason it gives is valid UTF-8 of at most 512 bytes.

A status or projection call that fails is counted in the job's row. A failure
that is not worth a retry, and the tenth in a row, is turned into a result of
the dispatcher's own, with its report (`preOutboxFailures_reported`). The text
of the failure is arbitrary: it is made valid UTF-8 and cut to 512 bytes twice
before it becomes the reason of the result.

A launch that fails for good is reported in the same way, but its reason is
only cut to 512 bytes. Where the cut falls inside a character the result is
refused, and nothing is recorded (`launchFailure_reported_iff`).

What is assumed: the job's own texts are valid UTF-8 and leave room for the
comment, and SHA-256 digests are hexadecimal and do not collide on the keys of
the stored jobs.
-/
import SignalPlane.Dispatcher.BlockedTheorems
import SignalPlane.Dispatcher.ReconcileTheorems

namespace SignalPlane.Dispatcher

open Clock
open Workflow (exec)

/-! ## The result of a failure -/

/-- The stages under which the dispatcher reports a failure of its own. -/
def preOutboxStages : List String :=
  ["broker_status", "terminal_projection", "terminal_correlation", "terminal_rendering",
    "ci_wait_serialization", "ci_wait_correlation"]

/-- A digest is sixty-four lower-case hexadecimal digits. -/
def GoLib.HexDigests (lib : GoLib) : Prop :=
  ∀ s, (lib.sha256Hex s).length = 64 ∧
    ∀ b ∈ lib.sha256Hex s, (48 ≤ b ∧ b ≤ 57) ∨ (97 ≤ b ∧ b ≤ 102)

section Result

variable {lib : GoLib} {job : Job} {stage : String} {reason : GoString}

/-- The reason that is reported. -/
def reportedReason (reason : GoString) : GoString :=
  let safe := safeBrokerError { text := GoString.trimSpace reason }
  if safe = [] then lit "terminal projection failed before durable reporting state was created"
  else safe

theorem utf8_lit {s : String} (h : GoString.validUTF8 (lit s) = true) : GoString.Utf8 (lit s) :=
  GoString.validUTF8_iff.mp h

theorem utf8_reportedReason (reason : GoString) : GoString.Utf8 (reportedReason reason) := by
  unfold reportedReason
  dsimp only
  split
  · exact utf8_lit (by decide)
  · exact utf8_safeBrokerError _

theorem reportedReason_ne_nil (reason : GoString) : reportedReason reason ≠ [] := by
  unfold reportedReason
  dsimp only
  split
  · decide
  · next h => exact h

theorem length_reportedReason (reason : GoString) : (reportedReason reason).length ≤ 512 := by
  unfold reportedReason
  dsimp only
  split
  · decide
  · exact length_safeBrokerError _

theorem utf8_digest (h : lib.HexDigests) (s : GoString) : GoString.Utf8 (lib.sha256Hex s) := by
  refine GoString.utf8_of_ascii fun b hb => ?_
  rcases (h s).2 b hb with ⟨-, hb⟩ | ⟨-, hb⟩
  · exact UInt8.lt_of_le_of_lt hb (by decide)
  · exact UInt8.lt_of_le_of_lt hb (by decide)

theorem utf8_brokerSourceID (h : lib.HexDigests) : GoString.Utf8 (brokerSourceID lib job) :=
  GoString.Utf8.append (utf8_lit (by decide)) (utf8_digest h _)

theorem length_brokerSourceID (h : lib.HexDigests) (job : Job) :
    (brokerSourceID lib job).length = 94 := by
  rw [brokerSourceID, List.length_append, (h _).1]
  rfl

/-- A failure in the dispatcher's own words: how the run was finalized, what it says instead of the
broker's digests, the stage and the reason. -/
structure OwnFailure where
  finalize : String
  unavailable : String
  stage : String
  reason : GoString

/-- The result in which the dispatcher reports it. -/
def OwnFailure.result (f : OwnFailure) (lib : GoLib) (job : Job) : TerminalResult :=
  { version := terminalResultVersion
    runID := job.brokerRunID
    profile := job.profile
    repo := job.repository
    status := lit "failed"
    outcome := lit "failed"
    finalizeReason := lit f.finalize
    terminalSource := lit "signal_plane"
    idempotencyKeyDigest := lit f.unavailable
    requestFingerprint := brokerSourceID lib job
    launchConfigVersion := lit f.unavailable
    failureStage := lit f.stage
    failureReason := f.reason }

/-- Its words are among those that the dispatcher uses, and only a failed launch has no run. -/
structure OwnFailure.Worded (f : OwnFailure) (job : Job) : Prop where
  finalize : f.finalize ∈ ["signal_plane_terminal_projection_failed", "broker_launch_failed"]
  unavailable : f.unavailable ∈ ["unavailable-after-broker-acknowledgement",
    "unavailable-before-broker-acknowledgement"]
  stage : f.stage ∈ "broker_launch" :: preOutboxStages
  run : job.brokerRunID = [] → f.stage = "broker_launch"
  reason : f.reason ≠ []
  short : f.reason.length ≤ 512

/-- The failure that `QueuePreOutboxFailure` reports. -/
def preOutboxFailure (stage : String) (reason : GoString) : OwnFailure :=
  { finalize := "signal_plane_terminal_projection_failed"
    unavailable := "unavailable-after-broker-acknowledgement"
    stage := stage
    reason := reportedReason reason }

theorem preOutboxFailure_worded (hstage : stage ∈ preOutboxStages) (hrun : job.brokerRunID ≠ []) :
    (preOutboxFailure stage reason).Worded job :=
  ⟨List.mem_cons_self, List.mem_cons_self, List.mem_cons_of_mem _ hstage, fun h => absurd h hrun,
    reportedReason_ne_nil reason, length_reportedReason reason⟩

variable {f : OwnFailure}

/-- The stages are short words. -/
theorem OwnFailure.Worded.stage_word (hf : f.Worded job) :
    GoString.Utf8 (lit f.stage) ∧ lit f.stage ≠ [] ∧ (lit f.stage).length ≤ 21 := by
  have hwords : ∀ stage ∈ "broker_launch" :: preOutboxStages,
      GoString.validUTF8 (lit stage) = true ∧ lit stage ≠ [] ∧ (lit stage).length ≤ 21 := by decide
  obtain ⟨hutf8, hrest⟩ := hwords f.stage hf.stage
  exact ⟨utf8_lit hutf8, hrest⟩

theorem OwnFailure.Worded.unavailable_word (hf : f.Worded job) :
    GoString.Utf8 (lit f.unavailable) ∧ lit f.unavailable ≠ [] ∧
      (lit f.unavailable).length ≤ 41 := by
  have hwords : ∀ word ∈ ["unavailable-after-broker-acknowledgement",
      "unavailable-before-broker-acknowledgement"],
      GoString.validUTF8 (lit word) = true ∧ lit word ≠ [] ∧ (lit word).length ≤ 41 := by decide
  obtain ⟨hutf8, hrest⟩ := hwords f.unavailable hf.unavailable
  exact ⟨utf8_lit hutf8, hrest⟩

/-- Every text of the result but the reason is bounded UTF-8. -/
theorem OwnFailure.Worded.texts (hf : f.Worded job) (hdigests : lib.HexDigests) {value : GoString}
    (hvalue : value ∈ (f.result lib job).texts) : value = f.reason ∨
      (GoString.validUTF8 value = true ∧ value.length ≤ maxTerminalTextBytes) := by
  obtain ⟨hstage, -, hstage'⟩ := hf.stage_word
  obtain ⟨hword, -, hword'⟩ := hf.unavailable_word
  have fixed : ∀ value ∈ [([] : GoString), lit "failed", lit "signal_plane",
      lit "signal_plane_terminal_projection_failed", lit "broker_launch_failed"],
      GoString.validUTF8 value = true ∧ value.length ≤ maxTerminalTextBytes := by decide
  have hfinalize : lit f.finalize ∈ [([] : GoString), lit "failed", lit "signal_plane",
      lit "signal_plane_terminal_projection_failed", lit "broker_launch_failed"] := by
    have hmem := hf.finalize
    simp only [List.mem_cons, List.not_mem_nil, or_false] at hmem
    rcases hmem with h | h <;> simp [h]
  change value ∈ [[], lit "failed", lit "failed", lit f.finalize, lit "signal_plane",
    lit f.unavailable, brokerSourceID lib job, lit f.unavailable, [], lit f.stage, f.reason]
    at hvalue
  simp only [List.mem_cons, List.not_mem_nil, or_false] at hvalue
  rcases hvalue with rfl | rfl | rfl | rfl | rfl | rfl | rfl | rfl | rfl | rfl | rfl
  · exact .inr (fixed _ (by decide))
  · exact .inr (fixed _ (by decide))
  · exact .inr (fixed _ (by decide))
  · exact .inr (fixed _ hfinalize)
  · exact .inr (fixed _ (by decide))
  · exact .inr ⟨GoString.validUTF8_iff.mpr hword, hword'.trans (by decide)⟩
  · refine .inr ⟨GoString.validUTF8_iff.mpr (utf8_brokerSourceID hdigests), ?_⟩
    rw [length_brokerSourceID hdigests]
    decide
  · exact .inr ⟨GoString.validUTF8_iff.mpr hword, hword'.trans (by decide)⟩
  · exact .inr (fixed _ (by decide))
  · exact .inr ⟨GoString.validUTF8_iff.mpr hstage, hstage'.trans (by decide)⟩
  · exact .inl rfl

/-- The result is valid exactly if its reason is valid UTF-8. -/
theorem OwnFailure.Worded.validate_iff (hf : f.Worded job) (hdigests : lib.HexDigests) :
    validateTerminalResult lib job (f.result lib job) = .ok () ↔
      GoString.validUTF8 f.reason = true := by
  obtain ⟨-, hstage, -⟩ := hf.stage_word
  obtain ⟨-, hword, -⟩ := hf.unavailable_word
  have hfingerprint : brokerSourceID lib job ≠ [] := fun h => by
    have hlength := length_brokerSourceID hdigests job
    rw [h] at hlength
    cases hlength
  simp only [validateTerminalResult, require_bind_eq_ok]
  constructor
  · rintro ⟨-, -, htexts, -⟩
    exact (htexts f.reason (by simp [TerminalResult.texts, OwnFailure.result])).1
  · intro hvalid
    refine ⟨⟨rfl, rfl, rfl, rfl⟩, fun h => ?_, fun value hvalue => ?_,
      ⟨show lit "failed" ≠ [] by decide, show lit "failed" ≠ [] by decide, hword, hfingerprint,
        hword⟩, Nat.zero_le _, ?_, ?_, require_eq_ok.mpr ?_⟩
    · have hrun : job.brokerRunID = [] := h.1
      simp [TerminalResult.isPrelaunchFailure, OwnFailure.result, hrun, hf.run hrun] at h
    · rcases hf.texts hdigests hvalue with rfl | h
      · exact ⟨hvalid, hf.short.trans (by decide)⟩
      · exact h
    · change lit "failed" ∈ _
      decide
    · change terminalOutcomeMatchesStatus (lit "failed") (lit "failed") (lit f.stage) = true
      rw [terminalOutcomeMatchesStatus, if_neg (by decide), if_pos rfl]
      decide
    · rintro (h | h | h)
      · exact hstage h
      · exact hf.reason h
      · exact h rfl

/-! ## Its comment -/

/-- The lines of the comment about a failure. -/
theorem OwnFailure.Worded.commentLines (hf : f.Worded job) :
    commentLines lib job (f.result lib job) =
      [ lit "## Repository task terminal result", [],
        codeItem "Outcome" (lit "failed"),
        codeItem "Semantic job" (GoString.decimal job.id),
        codeItem "Semantic key" job.semanticKey,
        codeItem "Broker run" (displayBrokerRun job.brokerRunID),
        codeItem "Result version" terminalResultVersion,
        codeItem "Launch config" (lit f.unavailable),
        codeItem "Launch idempotency digest" (lit f.unavailable),
        codeItem "Request fingerprint" (brokerSourceID lib job),
        codeItem "Verification" (lit "not_run"),
        codeItem "Failure stage" (lit f.stage),
        lit "- Diagnostic: " ++ f.reason,
        [], noFinalSummary] := by
  have hfailed : lit "failed" ≠ lit "no_change_required" := by decide
  simp only [Dispatcher.commentLines, commentWorker]
  simp [OwnFailure.result, lineIf, hf.stage_word.2.1, hf.reason, hfailed]

/-- The comment about a result. -/
def resultComment (lib : GoLib) (job : Job) (r : TerminalResult) : GoString :=
  GoString.join (commentLines lib job r) [10] ++ [10]

theorem utf8_codeItem {label : String} {value : GoString}
    (hlabel : GoString.validUTF8 (lit ("- " ++ label ++ ": \x60")) = true)
    (hvalue : GoString.Utf8 value) : GoString.Utf8 (codeItem label value) :=
  ((utf8_lit hlabel).append hvalue).append (utf8_lit (by decide))

theorem utf8_decimal (n : Int) : GoString.Utf8 (GoString.decimal n) := by
  refine GoString.utf8_of_ascii fun b hb => ?_
  have hdigit := GoString.isDecimalByte_of_mem_decimal hb
  simp only [GoString.isDecimalByte, Bool.or_eq_true, Bool.and_eq_true, decide_eq_true_eq] at hdigit
  rcases hdigit with rfl | ⟨-, h⟩
  · decide
  · exact UInt8.lt_of_le_of_lt h (by decide)

theorem utf8_displayBrokerRun {runID : GoString} (h : GoString.Utf8 runID) :
    GoString.Utf8 (displayBrokerRun runID) := by
  unfold displayBrokerRun
  split
  · exact utf8_lit (by decide)
  · exact h

theorem OwnFailure.Worded.utf8_comment (hf : f.Worded job) (hdigests : lib.HexDigests)
    (hkey : GoString.Utf8 job.semanticKey) (hrun : GoString.Utf8 job.brokerRunID)
    (hreason : GoString.Utf8 f.reason) :
    GoString.Utf8 (resultComment lib job (f.result lib job)) := by
  have newline : GoString.Utf8 [10] := GoString.validUTF8_iff.mp (by decide)
  refine GoString.Utf8.append (GoString.Utf8.join newline fun line hline => ?_) newline
  rw [hf.commentLines] at hline
  simp only [List.mem_cons, List.not_mem_nil, or_false] at hline
  rcases hline with rfl | rfl | rfl | rfl | rfl | rfl | rfl | rfl | rfl | rfl | rfl | rfl | rfl |
    rfl | rfl
  · exact utf8_lit (by decide)
  · exact .nil
  · exact utf8_codeItem (by decide) (utf8_lit (by decide))
  · exact utf8_codeItem (by decide) (utf8_decimal job.id)
  · exact utf8_codeItem (by decide) hkey
  · exact utf8_codeItem (by decide) (utf8_displayBrokerRun hrun)
  · exact utf8_codeItem (by decide) (utf8_lit (by decide))
  · exact utf8_codeItem (by decide) hf.unavailable_word.1
  · exact utf8_codeItem (by decide) hf.unavailable_word.1
  · exact utf8_codeItem (by decide) (utf8_brokerSourceID hdigests)
  · exact utf8_codeItem (by decide) (utf8_lit (by decide))
  · exact utf8_codeItem (by decide) hf.stage_word.1
  · exact (utf8_lit (by decide)).append hreason
  · exact .nil
  · exact utf8_lit (by decide)

/-- A failure can be reported exactly if its reason is valid UTF-8. -/
theorem OwnFailure.Worded.reportable_iff {s : Store} (hf : f.Worded job)
    (hdigests : lib.HexDigests) (hkey : GoString.Utf8 job.semanticKey)
    (hrun : GoString.Utf8 job.brokerRunID)
    (hshort : (resultComment lib job (f.result lib job)).length ≤ maxCommentBytes)
    (houtbox : s.outbox.find? job.id = none)
    (hfree : s.reportKeyTaken job.id (reportKey lib job terminalResultVersion) = false) :
    s.Reportable lib job (f.result lib job) ↔ GoString.validUTF8 f.reason = true := by
  refine ⟨fun h => (hf.validate_iff hdigests).mp h.1, fun hvalid => ?_⟩
  have hutf8 := hf.utf8_comment hdigests hkey hrun (GoString.validUTF8_iff.mp hvalid)
  refine ⟨(hf.validate_iff hdigests).mpr hvalid, resultComment lib job (f.result lib job), ?_, ?_⟩
  · rw [renderTerminalComment, if_pos]
    · rfl
    · exact Bool.and_eq_true_iff.mpr ⟨GoString.validUTF8_iff.mpr hutf8, decide_eq_true hshort⟩
  · rw [houtbox]
    exact hfree

end Result

/-! ## Consecutive failures -/

/-- One failure of a status or projection call, with the job as the caller knows it. -/
structure PreOutboxFailure where
  job : Job
  recoverableState : JobStatus
  stage : String
  failure : GoError
  retryable : Bool
  now : Int

/-- What of a job never changes. -/
def Job.identity (job : Job) : Job :=
  { job with
    status := .launched
    attempts := 0
    preOutboxAttempts := 0
    firstAttemptAt := 0 }

/-- A failure of the row's job, with the arguments the dispatcher passes. -/
structure PreOutboxFailure.Of (f : PreOutboxFailure) (row : JobRow) : Prop where
  job : f.job.identity = row.toJob.identity
  state : f.recoverableState = .launched ∨ f.recoverableState = .reportPending
  stage : f.stage ∈ preOutboxStages

/-- The store after the failure was reconciled. `reconcilePreOutboxFailure` asks nothing. -/
def PreOutboxFailure.reconcile (env : Env) (s : Store) (f : PreOutboxFailure) : Store :=
  (exec silentBroker (reconcilePreOutboxFailure env f.job f.recoverableState f.stage f.failure
    f.retryable f.now) s).store

/-- The failures so far were counted, and nothing is reported. -/
structure Unreported (s₀ : Store) (row : JobRow) (attempts : Int) (s : Store) : Prop where
  terminalResults : s.terminalResults = s₀.terminalResults
  outbox : s.outbox = s₀.outbox
  row : ∃ r, s.jobs.find? row.id = some r ∧ r.isPollResult = true ∧
    r.preOutboxAttempts = attempts

/-- One failed result and its pending report were added, and the job is `report_pending`. -/
def FailureReported (s₀ : Store) (row : JobRow) (s : Store) : Prop :=
  ∃ t o r, s.terminalResults.rows = s₀.terminalResults.rows ++ [t] ∧ t.jobID = row.id ∧
    t.outcome = lit "failed" ∧ s.outbox.rows = s₀.outbox.rows ++ [o] ∧ o.jobID = row.id ∧
    o.status = .pending ∧ s.jobs.find? row.id = some r ∧ r.status = .reportPending

/-- A failure of the row's job can be reported from `s`. -/
structure JobRow.CanReport (env : Env) (row : JobRow) (s : Store) : Prop where
  digests : env.lib.HexDigests
  run : row.brokerRunID ≠ []
  keyText : GoString.Utf8 row.semanticKey
  runText : GoString.Utf8 row.brokerRunID
  short : ∀ stage ∈ preOutboxStages, ∀ reason, (resultComment env.lib row.toJob
    (preOutboxFailureResult env.lib row.toJob (lit stage) reason)).length ≤ maxCommentBytes
  terminal : s.terminalResults.find? row.id = none
  outbox : s.outbox.find? row.id = none
  free : s.reportKeyTaken row.id (reportKey env.lib row.toJob terminalResultVersion) = false

section Failures

variable {env : Env} {s₀ s : Store} {row : JobRow} {attempts : Int} {f : PreOutboxFailure}

theorem identity_fields {job job' : Job} (h : job.identity = job'.identity) :
    job.id = job'.id ∧ job.semanticKey = job'.semanticKey ∧ job.brokerRunID = job'.brokerRunID :=
  ⟨congrArg (·.id) h, congrArg (·.semanticKey) h, congrArg (·.brokerRunID) h⟩

/-- What is queued for the job depends on its identity alone. -/
theorem resultComment_identity {lib : GoLib} {job job' : Job} (h : job.identity = job'.identity)
    (stage reason : GoString) :
    resultComment lib job (preOutboxFailureResult lib job stage reason) =
      resultComment lib job' (preOutboxFailureResult lib job' stage reason) := by
  have hidentity : ∀ job, resultComment lib job (preOutboxFailureResult lib job stage reason) =
      resultComment lib job.identity (preOutboxFailureResult lib job.identity stage reason) :=
    fun _ => rfl
  rw [hidentity job, h, ← hidentity job']

/-- A failed result that can be reported is reported. -/
theorem queueTerminalResult_reported {job : Job} {r : JobRow} {result : TerminalResult}
    (hid : job.id = row.id) (ht : s.terminalResults = s₀.terminalResults)
    (ho : s.outbox = s₀.outbox) (hterminal : s₀.terminalResults.find? row.id = none)
    (houtbox : s₀.outbox.find? row.id = none) (hr : s.jobs.find? row.id = some r)
    (haccepts : r.acceptsResult = true) (houtcome : result.outcome = lit "failed")
    (hreportable : s.Reportable env.lib job result) (now : Int) :
    ∃ s', queueTerminalResult env.lib job result now s = .ok s' ∧ FailureReported s₀ row s' := by
  have hnone : s.hasTerminal job.id = false := by
    rw [Store.hasTerminal, ht, hid, hterminal]
    rfl
  obtain ⟨s', hs'⟩ :=
    (queueTerminalResult_succeeds_iff (hid ▸ hr) haccepts hnone).mpr hreportable
  refine ⟨s', hs', ?_⟩
  obtain ⟨-, body, -, hstore⟩ := queueTerminalResult_ok.mp hs'
  obtain ⟨-, rfl⟩ := storeTerminalResult_ok hstore
  have hself := s.jobs.find?_updateKey_self job.id JobRow.acceptsResult
    (fun row => { row with
      status := .reportPending
      dueAt := Clock.unixMilli now
      updatedAt := Clock.unixMilli now
      lastError := []
      preOutboxAttempts := 0 }) (fun _ => rfl)
  rw [show s.jobs.find? job.id = some r from hid ▸ hr, Option.map_some, if_pos haccepts] at hself
  refine ⟨result.toRow job.id now, s.newOutboxRow job.id result.version body
      (reportKey env.lib job result.version) now, { r with
    status := .reportPending
    dueAt := Clock.unixMilli now
    updatedAt := Clock.unixMilli now
    lastError := []
    preOutboxAttempts := 0 }, ?_, hid, houtcome, ?_, hid, rfl, ?_, rfl⟩
  · rw [← ht]
    refine Table.rows_insert ?_
    change s.terminalResults.find? job.id = none
    rw [ht, hid]
    exact hterminal
  · rw [← ho]
    refine Table.rows_insert ?_
    change s.outbox.find? job.id = none
    rw [ho, hid]
    exact houtbox
  · rw [← hid]
    exact hself

/-- Any text can be queued as the reason of a failure. -/
theorem queuePreOutboxFailure_reported {job : Job} {r : JobRow} {stage : String}
    (hc : row.CanReport env s₀) (hjob : job.identity = row.toJob.identity)
    (hstage : stage ∈ preOutboxStages) (ht : s.terminalResults = s₀.terminalResults)
    (ho : s.outbox = s₀.outbox) (hr : s.jobs.find? row.id = some r)
    (haccepts : r.acceptsResult = true) (reason : GoString) (now : Int) :
    ∃ s', queuePreOutboxFailure env.lib job (lit stage) reason now s = .ok s' ∧
      FailureReported s₀ row s' := by
  obtain ⟨hid, hkey, hrun⟩ := identity_fields hjob
  have hid : job.id = row.id := hid
  have hkey : job.semanticKey = row.semanticKey := hkey
  have hrun : job.brokerRunID = row.brokerRunID := hrun
  have hworded : (preOutboxFailure stage reason).Worded job :=
    preOutboxFailure_worded hstage (hrun ▸ hc.run)
  refine queueTerminalResult_reported hid ht ho hc.terminal hc.outbox hr haccepts rfl
    ((hworded.reportable_iff hc.digests (hkey ▸ hc.keyText) (hrun ▸ hc.runText) ?_ ?_ ?_).mpr
      (GoString.validUTF8_iff.mpr (utf8_reportedReason reason))) now
  · change (resultComment env.lib job
      (preOutboxFailureResult env.lib job (lit stage) reason)).length ≤ maxCommentBytes
    rw [resultComment_identity hjob]
    exact hc.short stage hstage reason
  · rw [ho, hid]
    exact hc.outbox
  · have hreportKey : reportKey env.lib job terminalResultVersion =
        reportKey env.lib row.toJob terminalResultVersion := by
      simp only [reportKey, hkey, JobRow.toJob]
    rw [Store.reportKeyTaken, ho, hid, hreportKey]
    exact hc.free

/-- What one failure does to a job without a report. -/
theorem Unreported.step (h : Unreported s₀ row attempts s) (hc : row.CanReport env s₀)
    (hf : f.Of row) :
    (f.retryable = true ∧ attempts + 1 < preOutboxMaxAttempts ∧
      Unreported s₀ row (attempts + 1) (f.reconcile env s)) ∨
    FailureReported s₀ row (f.reconcile env s) := by
  obtain ⟨r, hr, hpoll, rfl⟩ := h.row
  have hid : f.job.id = row.id := (identity_fields hf.job).1
  have hterminal : s.hasTerminal row.id = false := by
    rw [Store.hasTerminal, h.terminalResults, hc.terminal]
    rfl
  obtain ⟨jobs, hmark, hcounted⟩ := markPreOutboxFailure_counts hf.state hr hpoll hterminal
    (f.now + preOutboxRetryDelay (f.job.preOutboxAttempts + 1)) (safeBrokerError f.failure) f.now
  have hpoll' : (r.preOutboxFailed f.recoverableState
      (f.now + preOutboxRetryDelay (f.job.preOutboxAttempts + 1)) (safeBrokerError f.failure)
      f.now).isPollResult = true := by
    rcases hf.state with h | h <;> simp [JobRow.isPollResult, h]
  refine Workflow.Post.final (A := fun _ _ => True) (o := silentBroker)
    (Q := fun _ s' => (f.retryable = true ∧ r.preOutboxAttempts + 1 < preOutboxMaxAttempts ∧
      Unreported s₀ row (r.preOutboxAttempts + 1) s') ∨ FailureReported s₀ row s') ?_
  unfold reconcilePreOutboxFailure
  rw [← hid] at hmark
  refine Workflow.post_atomic_ok hmark ?_
  dsimp only
  split
  · next hretry =>
    simp only [Bool.and_eq_true, decide_eq_true_eq] at hretry
    refine Workflow.post_pure.mpr (.inl ⟨hretry.1, hretry.2, h.terminalResults, h.outbox, ?_⟩)
    exact ⟨_, hcounted, hpoll', rfl⟩
  · obtain ⟨s', hs', hreported⟩ := queuePreOutboxFailure_reported (s := { s with jobs := jobs }) hc
      hf.job hf.stage h.terminalResults h.outbox hcounted
      (by rcases hf.state with h | h <;> simp [JobRow.acceptsResult, h])
      (if f.retryable then lit "pre-outbox terminal reconciliation retry limit exhausted: " ++
        safeBrokerError f.failure else safeBrokerError f.failure) f.now
    exact Workflow.post_commit_ok hs' (Workflow.post_pure.mpr (.inr hreported))

/-- After the report nothing is counted or reported again. -/
theorem FailureReported.step (h : FailureReported s₀ row s) (hf : f.Of row) :
    FailureReported s₀ row (f.reconcile env s) := by
  have hid : f.job.id = row.id := (identity_fields hf.job).1
  have hterminal : s.hasTerminal row.id = true := by
    obtain ⟨t, -, -, hrows, ht, -⟩ := h
    have hmem : t ∈ s.terminalResults.rows := by
      rw [hrows]
      exact List.mem_append_right _ (List.mem_singleton_self t)
    rw [Store.hasTerminal, ← ht, Table.find?_key hmem]
    rfl
  refine Workflow.Post.final (A := fun _ _ => True) (o := silentBroker)
    (Q := fun _ s' => FailureReported s₀ row s') ?_
  unfold reconcilePreOutboxFailure
  refine Workflow.post_bind.mpr (Workflow.post_atomic (fun attempts s' hmark => ?_) fun e _ => ?_)
  · obtain ⟨-, -, -, -, hnone, -⟩ := markPreOutboxFailure_ok.mp hmark
    rw [hid, hterminal] at hnone
    cases hnone
  · exact Workflow.post_pure.mpr h

theorem FailureReported.steps (h : FailureReported s₀ row s) {failures : List PreOutboxFailure}
    (hf : ∀ f ∈ failures, f.Of row) :
    FailureReported s₀ row (failures.foldl (PreOutboxFailure.reconcile env) s) := by
  induction failures generalizing s with
  | nil => exact h
  | cons f failures ih =>
    exact ih (h.step (hf f List.mem_cons_self)) fun g hg => hf g (List.mem_cons_of_mem f hg)

/-- Failures are counted until one is not to be retried or the limit is reached. -/
theorem Unreported.steps (h : Unreported s₀ row attempts s) (hc : row.CanReport env s₀)
    {failures : List PreOutboxFailure} (hf : ∀ f ∈ failures, f.Of row)
    (hend : (failures ≠ [] ∧ preOutboxMaxAttempts ≤ attempts + failures.length) ∨
      ∃ f ∈ failures, f.retryable = false) :
    FailureReported s₀ row (failures.foldl (PreOutboxFailure.reconcile env) s) := by
  induction failures generalizing s attempts with
  | nil =>
    rcases hend with ⟨hne, -⟩ | ⟨f, hf, -⟩
    · exact absurd rfl hne
    · cases hf
  | cons f failures ih =>
    have hrest : ∀ g ∈ failures, g.Of row := fun g hg => hf g (List.mem_cons_of_mem f hg)
    rcases h.step hc (hf f List.mem_cons_self) with ⟨hretry, hlt, h'⟩ | h'
    · refine ih h' hrest ?_
      rcases hend with ⟨-, hle⟩ | ⟨g, hg, hfalse⟩
      · refine .inl ⟨?_, ?_⟩
        · rintro rfl
          simp only [List.length_cons, List.length_nil] at hle
          omega
        · simp only [List.length_cons] at hle
          push_cast at hle
          omega
      · rcases List.mem_cons.mp hg with rfl | hg
        · rw [hretry] at hfalse
          cases hfalse
        · exact .inr ⟨g, hg, hfalse⟩
    · exact h'.steps hrest

/-! ## Every reachable state -/

/-- The key of a job's report is free as long as digests tell the stored jobs apart. -/
theorem Store.ReportsFiled.free {lib : GoLib} (hs : s.ReportsFiled lib)
    (hrow : s.jobs.find? row.id = some row)
    (hdistinct : ∀ r ∈ s.jobs.rows,
      lib.sha256Hex (r.semanticKey ++ [0] ++ terminalResultVersion) =
        lib.sha256Hex (row.semanticKey ++ [0] ++ terminalResultVersion) →
      r.semanticKey = row.semanticKey) :
    s.reportKeyTaken row.id (reportKey lib row.toJob terminalResultVersion) = false := by
  rw [Store.reportKeyTaken, List.any_eq_false]
  intro o ho htaken
  simp only [Bool.and_eq_true, decide_eq_true_eq] at htaken
  obtain ⟨hother, hkey⟩ := htaken
  have houtbox := Table.find?_key ho
  -- The other report belongs to a job, under that job's key.
  obtain ⟨r, hr⟩ : ∃ r, s.jobs.find? o.jobID = some r := by
    refine Option.ne_none_iff_exists'.mp fun hnone => ?_
    cases houtbox.symm.trans ((hs.sound o.jobID).row hnone)
  obtain ⟨t, ht⟩ : ∃ t, s.terminalResults.find? o.jobID = some t := by
    refine Option.ne_none_iff_exists'.mp fun hnone => ?_
    cases houtbox.symm.trans ((hs.sound o.jobID).both.mpr hnone)
  have hfiled := (hs.filed o.jobID r t o hr ht houtbox).2
  rw [hkey, reportKey, reportKey] at hfiled
  have hsame := hdistinct r (Table.mem_of_find? hr) (List.append_cancel_left hfiled).symm
  exact hother (hs.keys.semantic _ _ _ _ hr hrow hsame)

end Failures

/-- In every state the dispatcher reaches, failures before the report of a launched or
`report_pending` job are bounded: one that is not to be retried, and otherwise the tenth in a row,
adds one failed result and one pending report. No text of a failure can prevent that. -/
theorem preOutboxFailures_reported (env : Env) (s : Store) (hs : Reachable env s) (row : JobRow)
    (hrow : s.jobs.find? row.id = some row)
    (hstatus : row.status = .launched ∨ row.status = .reportPending)
    (hterminal : s.terminalResults.find? row.id = none)
    (hkey : GoString.validUTF8 row.semanticKey = true)
    (hrun : GoString.validUTF8 row.brokerRunID = true)
    (hshort : ∀ stage ∈ preOutboxStages, ∀ reason, (resultComment env.lib row.toJob
      (preOutboxFailureResult env.lib row.toJob (lit stage) reason)).length ≤ maxCommentBytes)
    (hdigests : env.lib.HexDigests)
    (hdistinct : ∀ r ∈ s.jobs.rows,
      env.lib.sha256Hex (r.semanticKey ++ [0] ++ terminalResultVersion) =
        env.lib.sha256Hex (row.semanticKey ++ [0] ++ terminalResultVersion) →
      r.semanticKey = row.semanticKey) :
    (∀ failures : List PreOutboxFailure, (∀ f ∈ failures, f.Of row) →
      (10 ≤ failures.length ∨ ∃ f ∈ failures, f.retryable = false) →
      FailureReported s row (failures.foldl (PreOutboxFailure.reconcile env) s)) ∧
    ∀ stage ∈ preOutboxStages, ∀ reason now,
      ∃ s', queuePreOutboxFailure env.lib row.toJob (lit stage) reason now s = .ok s' ∧
        FailureReported s row s' := by
  have hfiled := hs.reportsFiled
  have hwf := Reachable.wellFormed hs row.id
  have hnone : s.hasTerminal row.id = false := by
    rw [Store.hasTerminal, hterminal]
    rfl
  have hpolled : (s.view row.id).polled := (Store.view_polled hrow).mpr
    (hstatus.imp_right fun h => .inr ⟨h, hnone⟩)
  have hc : row.CanReport env s :=
    { digests := hdigests
      run := Store.view_runID hrow ▸ (hwf.polled hpolled).1
      keyText := GoString.validUTF8_iff.mp hkey
      runText := GoString.validUTF8_iff.mp hrun
      short := hshort
      terminal := hterminal
      outbox := (hfiled.sound row.id).both.mpr hterminal
      free := hfiled.free hrow hdistinct }
  have hpoll : row.isPollResult = true := by simpa [JobRow.isPollResult] using hstatus
  refine ⟨fun failures hf hend => ?_, fun stage hstage reason now => ?_⟩
  · have hstart : Unreported s row row.preOutboxAttempts s :=
      ⟨rfl, rfl, row, hrow, hpoll, rfl⟩
    refine hstart.steps hc hf (hend.imp_left fun hten => ⟨?_, ?_⟩)
    · rintro rfl
      simp at hten
    · have hcounted := hfiled.counted row.id row hrow
      simp only [preOutboxMaxAttempts]
      omega
  · refine queuePreOutboxFailure_reported hc rfl hstage rfl rfl hrow ?_ reason now
    rcases hstatus with h | h <;> simp [JobRow.acceptsResult, h]

/-! ## The length of a comment -/

theorem length_join_le (parts : List GoString) (sep : GoString) :
    (GoString.join parts sep).length ≤ (parts.map fun p => p.length + sep.length).sum := by
  unfold GoString.join
  induction parts with
  | nil => exact le_rfl
  | cons p parts ih =>
    cases parts with
    | nil => simp [List.intercalate]
    | cons q parts =>
      rw [List.intercalate_cons_cons, List.length_append, List.length_append, List.map_cons,
        List.sum_cons]
      omega

/-- The comment takes at most 1400 bytes beside the job's own texts. -/
theorem OwnFailure.Worded.length_comment {lib : GoLib} {job : Job} {f : OwnFailure}
    (hf : f.Worded job) (hdigests : lib.HexDigests) :
    (resultComment lib job (f.result lib job)).length ≤ 1400 + (GoString.decimal job.id).length +
      job.semanticKey.length + job.brokerRunID.length := by
  obtain ⟨-, -, hstage⟩ := hf.stage_word
  obtain ⟨-, -, hunavailable⟩ := hf.unavailable_word
  have hreason := hf.short
  have hsource := length_brokerSourceID hdigests job
  have hrun : (displayBrokerRun job.brokerRunID).length ≤ 16 + job.brokerRunID.length := by
    unfold displayBrokerRun
    split
    · exact (show (lit "not acknowledged").length ≤ 16 by decide).trans (Nat.le_add_right _ _)
    · omega
  have hitem : ∀ label ∈ ["Outcome", "Semantic job", "Semantic key", "Broker run",
      "Result version", "Launch config", "Launch idempotency digest", "Request fingerprint",
      "Verification", "Failure stage"], ∀ value : GoString,
      (codeItem label value).length ≤ 32 + value.length := by
    intro label hlabel value
    have hfixed : ∀ label ∈ ["Outcome", "Semantic job", "Semantic key", "Broker run",
        "Result version", "Launch config", "Launch idempotency digest", "Request fingerprint",
        "Verification", "Failure stage"],
        (lit ("- " ++ label ++ ": \x60")).length + (lit "\x60").length ≤ 32 := by decide
    have := hfixed label hlabel
    simp only [codeItem, List.length_append]
    omega
  have hword : ∀ word ∈ [lit "failed", terminalResultVersion, lit "not_run"],
      word.length ≤ 40 := by decide
  have hhead : (lit "## Repository task terminal result").length ≤ 40 := by decide
  have hdiagnostic : (lit "- Diagnostic: ").length ≤ 14 := by decide
  have hsummary : noFinalSummary.length ≤ 120 := by decide
  have houtcome := hitem "Outcome" (by decide) (lit "failed")
  have hid := hitem "Semantic job" (by decide) (GoString.decimal job.id)
  have hkey := hitem "Semantic key" (by decide) job.semanticKey
  have hbroker := hitem "Broker run" (by decide) (displayBrokerRun job.brokerRunID)
  have hversion := hitem "Result version" (by decide) terminalResultVersion
  have hlaunch := hitem "Launch config" (by decide) (lit f.unavailable)
  have hdigest := hitem "Launch idempotency digest" (by decide) (lit f.unavailable)
  have hfingerprint := hitem "Request fingerprint" (by decide) (brokerSourceID lib job)
  have hverification := hitem "Verification" (by decide) (lit "not_run")
  have hfailure := hitem "Failure stage" (by decide) (lit f.stage)
  have hfailed := hword (lit "failed") (by decide)
  have hresult := hword terminalResultVersion (by decide)
  have hnotRun := hword (lit "not_run") (by decide)
  rw [resultComment, List.length_append, hf.commentLines]
  refine (Nat.add_le_add_right (length_join_le _ _) _).trans ?_
  simp only [List.map_cons, List.map_nil, List.sum_cons, List.sum_nil, List.length_append,
    List.length_singleton, List.length_nil]
  omega

/-! ## A launch that fails for good -/

/-- The reason that `QueueLaunchFailure` reports. -/
def launchReason (reason : GoString) : GoString :=
  let trimmed := GoString.trimSpace reason
  (if trimmed = [] then lit "broker launch failed before a run was acknowledged"
    else trimmed).take 512

theorem launchReason_ne_nil (reason : GoString) : launchReason reason ≠ [] := by
  unfold launchReason
  dsimp only
  split
  · decide
  · next h => simpa using h

/-- The failure that `QueueLaunchFailure` reports. -/
def launchFailure (reason : GoString) : OwnFailure :=
  { finalize := "broker_launch_failed"
    unavailable := "unavailable-before-broker-acknowledgement"
    stage := "broker_launch"
    reason := launchReason reason }

theorem launchFailure_worded (job : Job) (reason : GoString) : (launchFailure reason).Worded job :=
  ⟨List.mem_cons_of_mem _ List.mem_cons_self, List.mem_cons_of_mem _ List.mem_cons_self,
    List.mem_cons_self, fun _ => rfl, launchReason_ne_nil reason, List.length_take_le 512 _⟩

/-- In every state the dispatcher reaches, the failure of a queued job's launch adds one failed
result and one pending report exactly if the cut leaves the reason valid UTF-8. -/
theorem launchFailure_reported_iff (env : Env) (s : Store) (hs : Reachable env s) (row : JobRow)
    (hrow : s.jobs.find? row.id = some row)
    (hstatus : row.status = .pendingLaunch ∨ row.status = .launchRetry)
    (hkey : GoString.validUTF8 row.semanticKey = true)
    (hshort : 1400 + (GoString.decimal row.id).length + row.semanticKey.length ≤ maxCommentBytes)
    (hdigests : env.lib.HexDigests)
    (hdistinct : ∀ r ∈ s.jobs.rows,
      env.lib.sha256Hex (r.semanticKey ++ [0] ++ terminalResultVersion) =
        env.lib.sha256Hex (row.semanticKey ++ [0] ++ terminalResultVersion) →
      r.semanticKey = row.semanticKey)
    (job : Job) (hjob : job.identity = row.toJob.identity) (reason : GoString) (now : Int) :
    (∃ s', queueLaunchFailure env.lib job reason now s = .ok s' ∧ FailureReported s row s') ↔
      GoString.validUTF8 (launchReason reason) = true := by
  obtain ⟨hid, hkey', hrun⟩ := identity_fields hjob
  have hid : job.id = row.id := hid
  have hkey' : job.semanticKey = row.semanticKey := hkey'
  have hfiled := hs.reportsFiled
  have hline : row.status.isQueued = true := by
    rcases hstatus with h | h <;> simp [h, JobStatus.isQueued]
  have hqueued := (Reachable.wellFormed hs row.id).queued ((Store.view_queued hrow).mpr hline)
  have hnorun : job.brokerRunID = [] :=
    hrun.trans ((Store.view_runID hrow).symm.trans hqueued.1)
  have hnone : s.hasTerminal row.id = false := hqueued.2.1
  have hterminal : s.terminalResults.find? row.id = none := by
    simpa [Store.hasTerminal] using hnone
  have houtbox := (hfiled.sound row.id).both.mpr hterminal
  have haccepts : row.acceptsResult = true := by
    rcases hstatus with h | h <;> simp [JobRow.acceptsResult, h, JobStatus.isQueued]
  have hresult : launchFailureResult env.lib job reason =
      (launchFailure reason).result env.lib job := by
    rw [OwnFailure.result, hnorun]
    rfl
  have hworded := launchFailure_worded job reason
  have hreportable : s.Reportable env.lib job ((launchFailure reason).result env.lib job) ↔
      GoString.validUTF8 (launchReason reason) = true := by
    refine hworded.reportable_iff hdigests (hkey' ▸ GoString.validUTF8_iff.mp hkey)
      (hnorun ▸ .nil) ((hworded.length_comment hdigests).trans ?_) (hid ▸ houtbox) ?_
    · rw [hid, hkey', hnorun]
      exact hshort
    · rw [hid, show reportKey env.lib job terminalResultVersion =
        reportKey env.lib row.toJob terminalResultVersion by
          simp only [reportKey, hkey', JobRow.toJob]]
      exact hfiled.free hrow hdistinct
  rw [← hreportable]
  constructor
  · rintro ⟨s', hs', -⟩
    rw [queueLaunchFailure, hresult] at hs'
    exact (queueTerminalResult_succeeds_iff (hid ▸ hrow) haccepts (hid ▸ hnone)).mp ⟨s', hs'⟩
  · intro h
    rw [queueLaunchFailure, hresult]
    exact queueTerminalResult_reported hid rfl rfl hterminal houtbox hrow haccepts rfl h now

/-! ## Ten failures -/

namespace Sample

/-- The digests of the sample's two texts; no other is asked for. -/
def digest (s : GoString) : GoString :=
  if s = lit "repository-task:v1:route:octo/repo:issue:5" ++ [0] ++ terminalResultVersion then
    lit "3646489e0e67ad48ab68d0f452e46029703a695d48c99bbd28b99d764f094d83"
  else if s = lit "route" ++ [0] ++ lit "octo/repo" ++ [0] ++ lit "5" ++ [0] ++ lit "agent" then
    lit "b8d3112ff1653a084eb03f349e3f5d658aff0295db1abee069d196f750524c54"
  else List.replicate 64 48

def digestLib : GoLib := { lib with sha256Hex := digest }

def digestEnv : Env := { env with lib := digestLib }

theorem digestLib_hexDigests : digestLib.HexDigests := by
  intro s
  change (digest s).length = 64 ∧ ∀ b ∈ digest s, (48 ≤ b ∧ b ≤ 57) ∨ (97 ≤ b ∧ b ≤ 102)
  unfold digest
  split
  · decide +kernel
  · split <;> decide +kernel

/-- The launched job of the sample, in a store of the library with digests. -/
def digestStore : Store := run digestEnv launchedRun .empty

def launchedRow : JobRow :=
  { id := 1
    semanticKey := lit "repository-task:v1:route:octo/repo:issue:5"
    routeID := lit "route"
    launchProfile := lit "agent"
    repository := lit "octo/repo"
    issueNumber := 5
    sourceDeliveryID := lit "delivery1"
    brokerRunID := lit "run-1"
    status := .launched
    attempts := 1
    firstLaunchAttemptAt := some 1000
    dueAt := 3000
    createdAt := 0
    updatedAt := 1000 }

theorem digestStore_rows : digestStore.jobs.rows = [launchedRow] := by decide +kernel

/-- A status call that times out. -/
def timeout : PreOutboxFailure :=
  { job := job
    recoverableState := .launched
    stage := "broker_status"
    failure := unavailable
    retryable := true
    now := 3 * second }

end Sample

open Sample in
theorem ten_timeouts_reported :
    FailureReported digestStore launchedRow
      ((List.replicate 10 timeout).foldl (PreOutboxFailure.reconcile digestEnv) digestStore) := by
  have hreported := preOutboxFailures_reported digestEnv digestStore
    (Reachable.empty.run launchedRun) launchedRow (by decide +kernel) (.inl rfl)
    (by decide +kernel) (by decide) (by decide)
    (fun stage hstage reason =>
      ((preOutboxFailure_worded hstage (by decide)).length_comment
        digestLib_hexDigests).trans (by decide))
    digestLib_hexDigests (fun r hr _ => by
      rw [digestStore_rows, List.mem_singleton] at hr
      rw [hr])
  refine hreported.1 _ (fun f hf => ?_) (.inl (by decide))
  obtain rfl := (List.mem_replicate.mp hf).2
  exact ⟨by decide, .inl rfl, by decide⟩

namespace Sample

/-- The delivered job of the sample, still to be launched. -/
def queuedStore : Store := run digestEnv (launchedRun.take 1) .empty

def queuedRow : JobRow :=
  { launchedRow with
    brokerRunID := []
    status := .pendingLaunch
    attempts := 0
    firstLaunchAttemptAt := none
    dueAt := 0
    updatedAt := 0 }

theorem queuedStore_rows : queuedStore.jobs.rows = [queuedRow] := by decide +kernel

/-- The broker refuses the launch, with a code of one letter and `n` times `é`. -/
def refusal (n : Nat) : GoError :=
  { text := []
    broker := some { status := 400, code := 97 :: (List.replicate n [195, 169]).flatten } }

end Sample

open Sample in
/-- A code of two hundred characters is reported. -/
theorem short_refusal_reported :
    ∃ s', queueLaunchFailure digestLib queuedRow.toJob
        (safeLaunchFailureReason (refusal 200)) second queuedStore = .ok s' ∧
      FailureReported queuedStore queuedRow s' :=
  (launchFailure_reported_iff digestEnv queuedStore
    (Reachable.empty.run (launchedRun.take 1)) queuedRow (by decide +kernel)
    (.inl rfl) (by decide) (by decide) digestLib_hexDigests (fun r hr _ => by
      rw [queuedStore_rows, List.mem_singleton] at hr
      rw [hr]) _ rfl _ _).mpr (by decide +kernel)

open Sample in
/-- With three hundred the cut falls inside one, and the failure cannot be recorded. -/
theorem long_refusal_unrecorded :
    GoString.validUTF8 (safeLaunchFailureReason (refusal 300)) = true ∧
      queueLaunchFailure digestLib queuedRow.toJob
        (safeLaunchFailureReason (refusal 300)) second queuedStore =
        .error (newError "invalid terminal result text") := by
  decide +kernel

end SignalPlane.Dispatcher
