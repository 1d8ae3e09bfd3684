/-
SignalPlane.Dispatcher.CITransactions — what a transaction does to the
accounts.

`Store.account` reads the account of a job from four tables. `Moves j` is what
a transaction is shown to do: the account of job `j` makes at most one step,
and no other account changes. A transaction of the CI side needs to know the
row it was claimed for: `TaskWaits` for a reconciliation, `Attending` for an
attempt. Both survive everything a delivery writes, which is how they reach
from the claim to the transaction.
-/
import SignalPlane.Dispatcher.CIAccount
import SignalPlane.Dispatcher.CIEvent
import SignalPlane.Dispatcher.Worker

namespace SignalPlane.Dispatcher

open Clock

variable {task t : CITaskRow} {p : AttemptRow → Bool} {f : AttemptRow → AttemptRow} {a : AttemptRow}
  {key : GoString} {r : JobRow} {g : JobRow → JobRow} {attempt : CIRepairAttempt}
  {observation : CIObservation} {work : CIReconciliation} {state : AttemptState}
  {closed : List AttemptRow}

/-! ## The account of a job -/

/-- What the accounting sees of an attempt. -/
def AttemptRow.entry (a : AttemptRow) : AttemptEntry := ⟨a.attemptNumber, a.state, a.charged⟩

/-- The attempts of a job, in the order of their insertion. -/
def Store.attemptsOf (s : Store) (j : Int) : List AttemptRow :=
  s.attempts.rows.filter (fun a => a.jobID = j)

/-- What the tables say about the CI side of job `j`. -/
def Store.account (s : Store) (j : Int) : CIAccount where
  status := (s.jobs.find? j).map JobRow.status
  task := (s.ciTasks.find? j).map CITaskRow.state
  repairAttempts := ((s.ciTasks.find? j).map CITaskRow.repairAttempts).getD 0
  attempts := (s.attemptsOf j).map AttemptRow.entry
  escalation := (s.escalations.find? j).map EscalationRow.state

/-- Every attempt has the key of its job and number. -/
def Store.Keyed (s : Store) : Prop :=
  ∀ a ∈ s.attempts.rows, ∃ agentModel head,
    a.attemptKey = ciAttemptKey a.jobID agentModel head a.attemptNumber

/-- A key determines job and number, whatever model and head it names. -/
theorem ciAttemptKey_inj {j j' n n' : Int} {m m' h h' : GoString}
    (he : ciAttemptKey j m h n = ciAttemptKey j' m' h' n') : j = j' ∧ n = n' := by
  have hcolon : GoString.isDecimalByte 58 = false := by decide
  simp only [ciAttemptKey, List.append_assoc, List.append_cancel_left_eq] at he
  obtain ⟨hj, hrest⟩ := GoString.decimal_sep_inj hcolon
    (he : GoString.decimal j ++ 58 :: _ = GoString.decimal j' ++ 58 :: _)
  -- The number follows the last colon.
  have hlast : (m ++ lit ":" ++ h) ++ 58 :: GoString.decimal n =
      (m' ++ lit ":" ++ h') ++ 58 :: GoString.decimal n' := by
    simp only [List.append_assoc]
    exact hrest
  exact ⟨hj, (GoString.sep_decimal_inj hcolon hlast).2⟩

section Account

variable {s s' : Store} {j i : Int}

theorem Store.account_congr (hj : s'.jobs = s.jobs) (ht : s'.ciTasks = s.ciTasks)
    (ha : s'.attempts = s.attempts) (he : s'.escalations = s.escalations) :
    s'.account = s.account := by
  funext j
  simp only [Store.account, Store.attemptsOf, hj, ht, ha, he]

theorem Store.account_updateJob {p : JobRow → Bool} {f : JobRow → JobRow}
    {hf : ∀ r, (f r).id = r.id} (hr : s.jobs.find? j = some r) (hp : p r = true) :
    (s.updateJob j p f hf).account j = { s.account j with status := some (f r).status } := by
  have hfind : (s.updateJob j p f hf).jobs.find? j = some (f r) := by
    rw [Store.updateJob, Table.find?_updateKey_self, hr, Option.map_some, if_pos hp]
  simp only [Store.account, hfind]
  rfl

theorem Store.account_updateJob_ne {p : JobRow → Bool} {f : JobRow → JobRow}
    {hf : ∀ r, (f r).id = r.id} (hi : i ≠ j) :
    (s.updateJob j p f hf).account i = s.account i := by
  simp [Store.account, Store.updateJob, hi, Store.attemptsOf]

/-- An update of job rows that keeps the status is not seen. -/
theorem Store.account_updateJob_same {p : JobRow → Bool} {f : JobRow → JobRow}
    {hf : ∀ r, (f r).id = r.id} (h : ∀ r, (f r).status = r.status) :
    (s.updateJob j p f hf).account = s.account := by
  funext i
  simp only [Store.updateJob, Table.updateKey]
  simp only [Store.account, Store.attemptsOf, Table.find?_update]
  cases s.jobs.find? i with
  | none => rfl
  | some r => simp only [Option.map_some]; split <;> simp [h r]

theorem Store.account_updateTask {p : CITaskRow → Bool} {f : CITaskRow → CITaskRow}
    {hf : ∀ t, (f t).jobID = t.jobID} (ht : s.ciTasks.find? j = some t) (hp : p t = true) :
    (s.updateTask j p f hf).account j =
      { s.account j with task := some (f t).state, repairAttempts := (f t).repairAttempts } := by
  have hfind : (s.updateTask j p f hf).ciTasks.find? j = some (f t) := by
    rw [Store.updateTask, Table.find?_updateKey_self, ht, Option.map_some, if_pos hp]
  simp only [Store.account, hfind]
  rfl

theorem Store.account_updateTask_ne {p : CITaskRow → Bool} {f : CITaskRow → CITaskRow}
    {hf : ∀ t, (f t).jobID = t.jobID} (hi : i ≠ j) :
    (s.updateTask j p f hf).account i = s.account i := by
  simp [Store.account, Store.updateTask, hi, Store.attemptsOf]

/-- An update of a task that keeps state and charges is not seen. -/
theorem Store.account_updateTask_same {p : CITaskRow → Bool} {f : CITaskRow → CITaskRow}
    {hf : ∀ t, (f t).jobID = t.jobID} (ht : s.ciTasks.find? j = some t)
    (h : (f t).state = t.state ∧ (f t).repairAttempts = t.repairAttempts) :
    (s.updateTask j p f hf).account = s.account := by
  funext i
  by_cases hi : i = j
  · subst hi
    have hfind : (s.updateTask i p f hf).ciTasks.find? i = some (if p t then f t else t) := by
      rw [Store.updateTask, Table.find?_updateKey_self, ht, Option.map_some]
    simp only [Store.account, hfind, ht, Option.map_some, Option.getD_some]
    split
    · rw [h.1, h.2]
      rfl
    · rfl
  · exact Store.account_updateTask_ne hi

/-- A rewrite of the attempts that keeps their jobs rewrites the attempts of each job. -/
theorem Store.attemptsOf_map {attempts : Table AttemptRow.attemptKey} {g : AttemptRow → AttemptRow}
    (hrows : attempts.rows = s.attempts.rows.map g) (hg : ∀ a, (g a).jobID = a.jobID) :
    ({ s with attempts := attempts } : Store).attemptsOf j = (s.attemptsOf j).map g := by
  simp only [Store.attemptsOf, hrows, List.filter_map]
  congr 1
  exact List.filter_congr fun a _ => by simp [hg a]

/-- A rewrite of the attempts that keeps number, state and charge is not seen. -/
theorem Store.account_attempts_same {attempts : Table AttemptRow.attemptKey}
    {g : AttemptRow → AttemptRow} (hrows : attempts.rows = s.attempts.rows.map g)
    (hg : ∀ a, (g a).jobID = a.jobID ∧ (g a).entry = a.entry) :
    ({ s with attempts := attempts } : Store).account = s.account := by
  funext i
  have hlist := Store.attemptsOf_map (j := i) hrows fun a => (hg a).1
  simp only [Store.account, hlist, List.map_map]
  congr 1
  exact List.map_congr_left fun a _ => (hg a).2

theorem Store.keyed_map {g : AttemptRow → AttemptRow}
    (hrows : s'.attempts.rows = s.attempts.rows.map g)
    (hg : ∀ a, (g a).jobID = a.jobID ∧ (g a).attemptNumber = a.attemptNumber ∧
      (g a).attemptKey = a.attemptKey) (h : s.Keyed) : s'.Keyed := by
  intro a ha
  rw [hrows] at ha
  obtain ⟨a0, ha0, rfl⟩ := List.mem_map.mp ha
  obtain ⟨hjob, hnumber, hkey⟩ := hg a0
  rw [hjob, hnumber, hkey]
  exact h a0 ha0

/-- The rewrite that an update by key is. -/
def rewriteAttempt (key : GoString) (p : AttemptRow → Bool) (f : AttemptRow → AttemptRow)
    (a : AttemptRow) : AttemptRow :=
  if decide (a.attemptKey = key) && p a then f a else a

/-- An update by key that keeps jobs rewrites the attempts of each job. -/
theorem Store.attemptsOf_updateAttempt {hf : ∀ a, (f a).attemptKey = a.attemptKey}
    (hjob : ∀ a, (f a).jobID = a.jobID) :
    (s.updateAttempt key p f hf).attemptsOf j = (s.attemptsOf j).map (rewriteAttempt key p f) :=
  Store.attemptsOf_map (g := rewriteAttempt key p f) rfl fun b => by
    unfold rewriteAttempt
    split
    · exact hjob b
    · rfl

theorem Store.account_updateAttempt_same {hf : ∀ a, (f a).attemptKey = a.attemptKey}
    (h : ∀ a, (f a).jobID = a.jobID ∧ (f a).entry = a.entry) :
    (s.updateAttempt key p f hf).account = s.account := by
  refine Store.account_attempts_same (g := rewriteAttempt key p f) rfl fun a => ?_
  unfold rewriteAttempt
  split
  · exact h a
  · exact ⟨rfl, rfl⟩

/-- A rewrite by key that keeps job, number and key leaves the keys in order. -/
theorem Store.keyed_rewrite
    (hrows : s'.attempts.rows = s.attempts.rows.map (rewriteAttempt key p f))
    (hf : ∀ a, (f a).jobID = a.jobID ∧ (f a).attemptNumber = a.attemptNumber ∧
      (f a).attemptKey = a.attemptKey) (h : s.Keyed) : s'.Keyed := by
  refine Store.keyed_map hrows (fun a => ?_) h
  unfold rewriteAttempt
  split
  · exact hf a
  · exact ⟨rfl, rfl, rfl⟩

/-- An update of one attempt is not seen by the other jobs. -/
theorem Store.account_updateAttempt_ne {hf : ∀ a, (f a).attemptKey = a.attemptKey}
    (ha : s.attempts.find? key = some a) (hjob : ∀ a, (f a).jobID = a.jobID) (hi : i ≠ a.jobID) :
    (s.updateAttempt key p f hf).account i = s.account i := by
  have hlist : (s.updateAttempt key p f hf).attemptsOf i =
      (s.attemptsOf i).map (rewriteAttempt key p f) := Store.attemptsOf_updateAttempt hjob
  have hsame : (s.attemptsOf i).map (rewriteAttempt key p f) = s.attemptsOf i := by
    refine (List.map_congr_left fun b hb => ?_).trans (List.map_id _)
    obtain ⟨hmem, hb⟩ := List.mem_filter.mp hb
    refine if_neg fun hkey => hi ?_
    -- A row under the key is the attempt itself.
    obtain rfl : b.attemptKey = key := of_decide_eq_true (Bool.and_eq_true_iff.mp hkey).1
    obtain rfl := Option.mem_unique ha (Table.find?_key hmem)
    exact (of_decide_eq_true hb).symm
  simp only [Store.account, hlist, hsame]
  rfl

/-- An update of the last attempt of a job changes its last entry. -/
theorem Store.attemptsOf_updateAttempt_last {hf : ∀ a, (f a).attemptKey = a.attemptKey}
    (hlast : s.attemptsOf a.jobID = closed ++ [a]) (hp : p a = true)
    (hjob : ∀ a, (f a).jobID = a.jobID) :
    (s.updateAttempt a.attemptKey p f hf).attemptsOf a.jobID = closed ++ [f a] := by
  have hlist : (s.updateAttempt a.attemptKey p f hf).attemptsOf a.jobID =
      (s.attemptsOf a.jobID).map (rewriteAttempt a.attemptKey p f) :=
    Store.attemptsOf_updateAttempt hjob
  have hnodup : ((closed ++ [a]).map AttemptRow.attemptKey).Nodup := by
    rw [← hlast]
    exact s.attempts.nodup.sublist (List.filter_sublist.map _)
  have hclosed : closed.map (rewriteAttempt a.attemptKey p f) = closed := by
    refine (List.map_congr_left fun b hb => ?_).trans (List.map_id _)
    refine if_neg fun hkey => ?_
    have he : b.attemptKey = a.attemptKey := of_decide_eq_true (Bool.and_eq_true_iff.mp hkey).1
    rw [List.map_append, List.nodup_append] at hnodup
    exact hnodup.2.2 _ (List.mem_map_of_mem hb) _ (by simp) he
  rw [hlist, hlast, List.map_append, hclosed]
  simp [rewriteAttempt, hp]

theorem Store.account_updateAttempt_last {hf : ∀ a, (f a).attemptKey = a.attemptKey}
    (hlast : s.attemptsOf a.jobID = closed ++ [a]) (hp : p a = true)
    (hjob : ∀ a, (f a).jobID = a.jobID) : (s.updateAttempt a.attemptKey p f hf).account a.jobID =
      { s.account a.jobID with attempts := closed.map AttemptRow.entry ++ [(f a).entry] } := by
  simp only [Store.account, Store.attemptsOf_updateAttempt_last hlast hp hjob, List.map_append]
  rfl

/-- A new attempt is the last entry of its job. -/
theorem Store.account_insertAttempt (hnew : s.attempts.find? a.attemptKey = none) :
    ({ s with attempts := s.attempts.insert a } : Store).account a.jobID =
      { s.account a.jobID with attempts := (s.account a.jobID).attempts ++ [a.entry] } := by
  have hlist : ({ s with attempts := s.attempts.insert a } : Store).attemptsOf a.jobID =
      s.attemptsOf a.jobID ++ [a] := by
    simp [Store.attemptsOf, Table.rows_insert hnew]
  simp only [Store.account, hlist, List.map_append]
  rfl

theorem Store.account_insertAttempt_ne (hi : i ≠ a.jobID) :
    ({ s with attempts := s.attempts.insert a } : Store).account i = s.account i := by
  have hlist : ({ s with attempts := s.attempts.insert a } : Store).attemptsOf i =
      s.attemptsOf i := by
    cases hnew : s.attempts.find? a.attemptKey with
    | none => simp [Store.attemptsOf, Table.rows_insert hnew, hi.symm]
    | some _ => rw [Table.insert_of_find? hnew]
  simp only [Store.account, hlist]

theorem Store.keyed_insertAttempt (h : s.Keyed) (ha : ∃ agentModel head,
      a.attemptKey = ciAttemptKey a.jobID agentModel head a.attemptNumber) :
    ({ s with attempts := s.attempts.insert a } : Store).Keyed :=
  Table.forall_insert h ha

end Account

/-! ## Moves -/

/-- The account of job `j` makes at most one step, and no other account changes. -/
structure Moves (maxAttempts : Int) (j : Int) (s s' : Store) : Prop where
  others : ∀ i, i ≠ j → s'.account i = s.account i
  step : s'.account j = s.account j ∨ CIStep maxAttempts (s.account j) (s'.account j)
  keyed : s.Keyed → s'.Keyed

/-- `P` is kept by every step of an account, and implies that its charges are in order. -/
structure Kept (maxAttempts : Int) (P : Int → CIAccount → Prop) : Prop where
  accounted : ∀ j v, P j v → Accounted maxAttempts v
  step : ∀ j v v', P j v → CIStep maxAttempts v v' → P j v'

/-- Every account of the store meets `P`. -/
structure AllAccounts (P : Int → CIAccount → Prop) (s : Store) : Prop where
  keyed : s.Keyed
  accounts : ∀ j, P j (s.account j)

section Moves

variable {maxAttempts : Int} {j : Int} {s s' : Store} {P : Int → CIAccount → Prop}

theorem Moves.allAccounts (hP : Kept maxAttempts P) (h : Moves maxAttempts j s s')
    (hs : AllAccounts P s) : AllAccounts P s' := by
  refine ⟨h.keyed hs.keyed, fun i => ?_⟩
  by_cases hi : i = j
  · subst hi
    rcases h.step with he | hstep
    · rw [he]
      exact hs.accounts i
    · exact hP.step i _ _ (hs.accounts i) hstep
  · rw [h.others i hi]
    exact hs.accounts i

/-- A transaction that no account sees. -/
theorem Moves.of_same (h : s'.account = s.account) (hk : s.Keyed → s'.Keyed) :
    Moves maxAttempts j s s' :=
  ⟨fun i _ => congrFun h i, .inl (congrFun h j), hk⟩

/-- What no account sees may come first. -/
theorem Moves.after_same {s1 : Store} (h : Moves maxAttempts j s1 s') (hs : s1.account = s.account)
    (hk : s.Keyed → s1.Keyed) : Moves maxAttempts j s s' := by
  obtain ⟨hothers, hstep, hkeyed⟩ := h
  rw [hs] at hstep
  exact ⟨fun i hi => (hothers i hi).trans (congrFun hs i), hstep, fun h => hkeyed (hk h)⟩

/-- A transaction outside the four tables. -/
theorem Moves.of_tables (hj : s'.jobs = s.jobs) (ht : s'.ciTasks = s.ciTasks)
    (ha : s'.attempts = s.attempts) (he : s'.escalations = s.escalations) :
    Moves maxAttempts j s s' :=
  .of_same (Store.account_congr hj ht ha he) fun hk => by rwa [Store.Keyed, ha]

end Moves

/-! ## What a claim knows -/

/-- The task of job `j` waits for CI. -/
def TaskWaits (j : Int) (s : Store) : Prop :=
  ∃ t, s.ciTasks.find? j = some t ∧ t.state = .waitingCI

/-- The claimed attempt is stored, in the given state. -/
def Attending (attempt : CIRepairAttempt) (state : AttemptState) (s : Store) : Prop :=
  ∃ a, s.attempts.find? attempt.attemptKey = some a ∧ a.jobID = attempt.jobID ∧
    a.attemptNumber = attempt.attemptNumber ∧ a.state = state

theorem taskWaits_iff {j : Int} {s : Store} :
    TaskWaits j s ↔ (s.account j).task = some .waitingCI := by
  simp [TaskWaits, Store.account]

section Claims

variable {maxAttempts : Int} {s s' : Store} {lib : GoLib}

theorem DeliveryTransaction.waiting {j : Int} (h : DeliveryTransaction lib s s')
    (hw : TaskWaits j s) : TaskWaits j s' := by
  rwa [TaskWaits, h.ciTasks]

/-- A delivery changes when attempts are due, and nothing else of them. -/
theorem DeliveryTransaction.attempts (h : DeliveryTransaction lib s s') :
    ∃ g : AttemptRow → AttemptRow,
      (∀ a, ∃ dueAt updatedAt, g a = { a with dueAt := dueAt, updatedAt := updatedAt }) ∧
      s'.attempts.rows = s.attempts.rows.map g := by
  cases h with
  | event h =>
    obtain ⟨g, hg, hrows⟩ := recordCIEvent_attempts h
    exact ⟨g, hg.times, hrows⟩
  | wake h =>
    obtain ⟨_, _, rfl⟩ := recordRepositoryRunExternalWake_frame h
    exact ⟨id, fun a => ⟨a.dueAt, a.updatedAt, rfl⟩, (List.map_id _).symm⟩
  | record h =>
    obtain ⟨_, _, _, _, rfl⟩ := record_frame h
    exact ⟨id, fun a => ⟨a.dueAt, a.updatedAt, rfl⟩, (List.map_id _).symm⟩

theorem DeliveryTransaction.attending (h : DeliveryTransaction lib s s')
    (ha : Attending attempt state s) : Attending attempt state s' := by
  obtain ⟨g, hg, hrows⟩ := h.attempts
  obtain ⟨a, hfind, hjob, hnumber, hstate⟩ := ha
  obtain ⟨dueAt, updatedAt, hga⟩ := hg a
  have hmem : g a ∈ s'.attempts.rows := hrows ▸ List.mem_map_of_mem (Table.mem_of_find? hfind)
  have hkey : (g a).attemptKey = attempt.attemptKey := by
    rw [hga]
    exact (Table.key_of_find? hfind : a.attemptKey = _)
  refine ⟨g a, hkey ▸ Table.find?_key hmem, ?_, ?_, ?_⟩
  all_goals rw [hga]
  · exact hjob
  · exact hnumber
  · exact hstate

/-- An open attempt is the last one of its job, whose task is in repair. -/
theorem attempt_last (hv : Accounted maxAttempts (s.account a.jobID))
    (ha : s.attempts.find? key = some a) (hopen : a.entry.isOpen = true) :
    ∃ closed t, s.attemptsOf a.jobID = closed ++ [a] ∧ s.ciTasks.find? a.jobID = some t ∧
      t.state.inRepair = true ∧ (a.state = .running → t.state = .repairRunning) := by
  have hmem : a ∈ s.attemptsOf a.jobID :=
    List.mem_filter.mpr ⟨Table.mem_of_find? ha, by simp⟩
  have hentry : a.entry ∈ (s.account a.jobID).attempts := List.mem_map_of_mem hmem
  have hphase := hv.phase
  obtain ⟨t, ht⟩ : ∃ t, s.ciTasks.find? a.jobID = some t := by
    cases ht : s.ciTasks.find? a.jobID with
    | some t => exact ⟨t, rfl⟩
    | none =>
      have htask : (s.account a.jobID).task = none := by simp [Store.account, ht]
      rw [htask] at hphase
      rw [show (s.account a.jobID).attempts = [] from hphase] at hentry
      cases hentry
  have htask : (s.account a.jobID).task = some t.state := by simp [Store.account, ht]
  rw [htask] at hphase
  have hrepair : t.state.inRepair = true := by
    by_contra hne
    have := hphase.closed (Bool.not_eq_true _ ▸ hne) _ hentry
    simp [hopen] at this
  obtain ⟨closed, e, he, hspent, -⟩ := hphase.open_last hrepair
  obtain ⟨rows, last, hrows, hclosed, hlast⟩ := List.map_eq_append_iff.mp he
  obtain ⟨b, rfl, hb⟩ := List.map_eq_singleton_iff.mp hlast
  -- The earlier attempts are closed.
  have hab : a = b := by
    rw [hrows] at hmem
    rcases List.mem_append.mp hmem with h | h
    · have := (hspent a.entry (hclosed ▸ List.mem_map_of_mem h)).1
      simp [hopen] at this
    · exact List.mem_singleton.mp h
  subst hab
  refine ⟨rows, t, hrows, ht, hrepair, fun hrunning => ?_⟩
  cases hstate : t.state <;> simp only [hstate, CITaskState.inRepair] at hrepair hphase ⊢ <;>
    try simp at hrepair
  -- The last attempt of a task that is ready for repair is ready.
  obtain ⟨closed', e', he', -, hready⟩ := hphase
  have hee : a.entry = e' := by
    have := List.append_inj' (he.symm.trans he') rfl
    rw [hb, (List.cons.inj this.2).1]
  rw [← hee] at hready
  simp [AttemptRow.entry, hrunning] at hready

end Claims

/-! ## Observations -/

section Observations

variable {maxAttempts now j : Int} {s s' : Store}

/-- `UPDATE repository_ci_tasks` and `UPDATE jobs` of one job, one after the other. -/
theorem account_moveTask {f : CITaskRow → CITaskRow} {hf : ∀ t, (f t).jobID = t.jobID}
    {hg : ∀ r, (g r).id = r.id} (ht : s.ciTasks.find? j = some t) (hr : s.jobs.find? j = some r) :
    ((s.updateTask j (fun _ => true) f hf).updateJob j (fun _ => true) g hg).account j =
      { s.account j with
        status := some (g r).status
        task := some (f t).state
        repairAttempts := (f t).repairAttempts } := by
  have hr' : (s.updateTask j (fun _ => true) f hf).jobs.find? j = some r := hr
  rw [Store.account_updateJob hr' rfl, Store.account_updateTask ht rfl]

theorem account_moveTask_ne {i : Int} {f : CITaskRow → CITaskRow} {hf : ∀ t, (f t).jobID = t.jobID}
    {hg : ∀ r, (g r).id = r.id} (hi : i ≠ j) :
    ((s.updateTask j (fun _ => true) f hf).updateJob j (fun _ => true) g hg).account i =
      s.account i := by
  rw [Store.account_updateJob_ne hi, Store.account_updateTask_ne hi]

/-- A transaction that ends with a move of task and job: `s₁` is the store before that move. -/
theorem Moves.of_moveTask_after {s1 : Store} {f : CITaskRow → CITaskRow}
    {hf : ∀ t, (f t).jobID = t.jobID} {hg : ∀ r, (g r).id = r.id}
    (hothers : ∀ i, i ≠ j → s1.account i = s.account i) (hkeyed : s.Keyed → s1.Keyed)
    (ht : s1.ciTasks.find? j = some t) (hr : s1.jobs.find? j = some r)
    (hstep : CIStep maxAttempts (s.account j)
      { s1.account j with
        status := some (g r).status
        task := some (f t).state
        repairAttempts := (f t).repairAttempts }) : Moves maxAttempts j s
      ((s1.updateTask j (fun _ => true) f hf).updateJob j (fun _ => true) g hg) :=
  ⟨fun i hi => (account_moveTask_ne hi).trans (hothers i hi),
    .inr (account_moveTask ht hr ▸ hstep), hkeyed⟩

/-- A move of task and job that leaves the charges alone. -/
theorem Moves.of_moveTask {f : CITaskRow → CITaskRow} {hf : ∀ t, (f t).jobID = t.jobID}
    {hg : ∀ r, (g r).id = r.id} (ht : s.ciTasks.find? j = some t) (hr : s.jobs.find? j = some r)
    (hcharges : (f t).repairAttempts = t.repairAttempts) (hstep : CIStep maxAttempts (s.account j)
      { s.account j with status := some (g r).status, task := some (f t).state }) :
    Moves maxAttempts j s
      ((s.updateTask j (fun _ => true) f hf).updateJob j (fun _ => true) g hg) := by
  refine .of_moveTask_after (fun _ _ => rfl) id ht hr ?_
  have hsame : (s.account j).repairAttempts = t.repairAttempts := by simp [Store.account, ht]
  rwa [hcharges, ← hsame]

/-- The job of an account with a task is stored. -/
theorem Accounted.job_row (hv : Accounted maxAttempts (s.account j))
    (ht : s.ciTasks.find? j = some t) : ∃ r, s.jobs.find? j = some r := by
  have hsome := hv.owned (by simp [Store.account, ht])
  cases hr : s.jobs.find? j with
  | none => exact absurd (by simp [Store.account, hr]) hsome
  | some r => exact ⟨r, rfl⟩

theorem account_repairAttempts (ht : s.ciTasks.find? j = some t) :
    (s.account j).repairAttempts = t.repairAttempts := by simp [Store.account, ht]

theorem account_task (ht : s.ciTasks.find? j = some t) :
    (s.account j).task = some t.state := by simp [Store.account, ht]

/-- `queueCIEscalation` escalates the account of its job. -/
theorem queueCIEscalation_account {attempts budget : Int} {reason : GoString}
    (h : queueCIEscalation j observation attempts budget reason now s = .ok s')
    (ht : s.ciTasks.find? j = some t) (hr : s.jobs.find? j = some r) :
    s'.account j = (s.account j).escalated ∧ (∀ i, i ≠ j → s'.account i = s.account i) ∧
      s'.attempts = s.attempts := by
  simp only [queueCIEscalation, bind_eq_ok, pure_eq_ok] at h
  obtain ⟨body, -, -, -, rfl⟩ := h
  let s1 : Store := { s with escalations := s.escalations.insert (newEscalation j body now) }
  have hself : s1.escalations.find? j =
      some ((s.escalations.find? j).getD (newEscalation j body now)) :=
    (Table.find?_insert _ _ _).trans (if_pos rfl)
  have hother : ∀ i, i ≠ j → s1.escalations.find? i = s.escalations.find? i := fun i hi =>
    (Table.find?_insert _ _ _).trans (if_neg hi)
  refine ⟨(account_moveTask (s := s1) ht hr).trans ?_, fun i hi =>
    (account_moveTask_ne (s := s1) hi).trans ?_, rfl⟩
  · simp only [Store.account, hself, CIAccount.escalated, ht]
    cases s.escalations.find? j <;> rfl
  · simp only [Store.account, hother i hi]
    rfl

theorem failCIReconciliation_moves {policy : CIRepairPolicy} {failure : GoError} {retry : Bool}
    (hv : Accounted maxAttempts (s.account work.task.jobID)) (hw : TaskWaits work.task.jobID s)
    (h : failCIReconciliation policy work failure retry now s = .ok s') :
    Moves maxAttempts work.task.jobID s s' := by
  obtain ⟨t, ht, hstate⟩ := hw
  obtain ⟨r, hr⟩ := hv.job_row ht
  simp only [failCIReconciliation, require_bind_eq_ok] at h
  obtain ⟨-, h⟩ := h
  split at h
  · simp only [expectOne_bind_eq_ok, pure_eq_ok] at h
    obtain ⟨-, rfl⟩ := h
    exact .of_tables rfl rfl rfl rfl
  simp only [expectOne_bind_eq_ok] at h
  obtain ⟨-, h⟩ := h
  split at h
  · cases h
    refine .of_same ((Store.account_updateJob_same ?_).trans
      ((Store.account_updateTask_same ht ?_).trans rfl)) id
    · exact fun _ => rfl
    · exact ⟨rfl, rfl⟩
  · obtain ⟨haccount, hothers, hattempts⟩ := queueCIEscalation_account h ht hr
    have hsame : ∀ i, (s.updateReconciliation work.operationKey
        (fun r => decide (r.state = .running))
        (fun r => { r with
          state := .completed
          operationAttempts := r.operationAttempts + 1
          lastError := safeBrokerError failure
          updatedAt := unixMilli now }) (fun _ => rfl)).account i = s.account i := fun _ => rfl
    refine ⟨fun i hi => (hothers i hi).trans (hsame i), .inr ?_, fun hk => ?_⟩
    · rw [haccount, hsame]
      exact .escalate (by rw [account_task ht, hstate])
    · rwa [Store.Keyed, hattempts]

/-- Recording an observation is not seen, as the task keeps waiting. -/
theorem recordObservation_account {lib : GoLib} {encoded : GoString}
    (ht : s.ciTasks.find? work.task.jobID = some t) (hstate : t.state = .waitingCI) :
    (s.recordObservation lib work observation encoded task now).account = s.account := by
  let s1 := s.updateReconciliation work.operationKey (fun _ => true)
    (fun r => { r with
      state := if r.dirty && decide (observation.state = lit "pending") then .queued else .completed
      dueAt := if r.dirty && decide (observation.state = lit "pending") then unixMilli now
        else r.dueAt
      resultDigest := lit "sha256:" ++ lib.sha256Hex encoded
      updatedAt := unixMilli now }) (fun _ => rfl)
  let moved := fun t : CITaskRow => { t with
    currentHeadSHA := observation.headSHA
    state := .waitingCI
    updatedAt := unixMilli now }
  let s2 := s1.updateTask work.task.jobID (fun _ => true) moved (fun _ => rfl)
  have ht1 : s1.ciTasks.find? work.task.jobID = some t := ht
  have ht2 : s2.ciTasks.find? work.task.jobID = some (moved t) := by
    simp only [s2, Store.updateTask, Table.find?_updateKey_self, ht1, Option.map_some, if_true]
  have haccount2 : s2.account = s.account :=
    (Store.account_updateTask_same ht1 ⟨hstate.symm, rfl⟩).trans rfl
  unfold Store.recordObservation
  dsimp only
  split
  · exact Eq.trans (Store.account_updateTask_same ht1 ⟨rfl, rfl⟩) rfl
  · exact Eq.trans (Store.account_updateTask_same ht2 ⟨rfl, rfl⟩) haccount2

theorem Numbered.le_length {attempts : List AttemptEntry} (h : Numbered attempts)
    {a : AttemptEntry} (ha : a ∈ attempts) : 1 ≤ a.number ∧ a.number ≤ attempts.length := by
  have hmem : a.number ∈ attempts.map AttemptEntry.number := List.mem_map_of_mem ha
  rw [h] at hmem
  obtain ⟨i, hi, hnumber⟩ := List.mem_map.mp hmem
  have := List.mem_range.mp hi
  omega

/-- The key of the next attempt of a waiting task is new. -/
theorem find?_nextAttempt {agentModel head : GoString} (hk : s.Keyed)
    (hv : Accounted maxAttempts (s.account j)) (hw : TaskWaits j s) :
    s.attempts.find? (ciAttemptKey j agentModel head ((s.account j).repairAttempts + 1)) =
      none := by
  cases hfind : s.attempts.find? _ with
  | none => rfl
  | some a =>
    have hmem := Table.mem_of_find? hfind
    obtain ⟨m, h, hkey⟩ := hk a hmem
    obtain ⟨rfl, hnumber⟩ := ciAttemptKey_inj ((Table.key_of_find? hfind).symm.trans hkey)
    have hentry : a.entry ∈ (s.account a.jobID).attempts :=
      List.mem_map_of_mem (List.mem_filter.mpr ⟨hmem, by simp⟩)
    have hle := (hv.numbered.le_length hentry).2
    -- All attempts are charged, so the next number is one more than there are.
    have hphase := hv.phase
    rw [taskWaits_iff.mp hw] at hphase
    have hcount := hv.charged
    rw [countP_spent hphase] at hcount
    have : a.entry.number = (s.account a.jobID).repairAttempts + 1 := hnumber.symm
    omega

/-- What an observation makes of a waiting task. -/
theorem settleObservation_moves {policy : CIRepairPolicy} (hk : s.Keyed)
    (hv : Accounted maxAttempts (s.account j)) (hw : TaskWaits j s)
    (hcharges : task.repairAttempts = (s.account j).repairAttempts)
    (h : settleObservation policy j observation task maxAttempts now s = .ok s') :
    Moves maxAttempts j s s' := by
  obtain ⟨t, ht, hstate⟩ := hw
  obtain ⟨r, hr⟩ := hv.job_row ht
  have htask : (s.account j).task = some .waitingCI := by rw [account_task ht, hstate]
  have hattempts := account_repairAttempts ht
  have hescalate : ∀ {reason s'}, queueCIEscalation j observation task.repairAttempts maxAttempts
      reason now s = .ok s' → Moves maxAttempts j s s' := by
    intro reason s' h
    obtain ⟨haccount, hothers, hsame⟩ := queueCIEscalation_account h ht hr
    refine ⟨hothers, .inr (haccount ▸ .escalate htask), fun hk => ?_⟩
    rwa [Store.Keyed, hsame]
  simp only [settleObservation] at h
  split at h
  · cases h
    exact .of_moveTask ht hr rfl (.observe htask .green)
  split at h
  · exact hescalate h
  split at h
  · exact hescalate h
  next hbudget =>
  split at h
  · cases h
    exact .of_moveTask ht hr rfl (.observe htask .pending)
  next hcode =>
  -- A code failure within the budget opens the next attempt.
  have hlt : (s.account j).repairAttempts < maxAttempts := by
    rw [not_and, not_le] at hbudget
    exact hcharges ▸ hbudget (not_not.mp hcode)
  let attempt :=
    newAttempt policy j task.agentModel observation.headSHA (task.repairAttempts + 1) now
  have hnew : s.attempts.find? attempt.attemptKey = none := by
    simp only [attempt, newAttempt, hcharges]
    exact find?_nextAttempt hk hv ⟨t, ht, hstate⟩
  simp only [bind_eq_ok, pure_eq_ok] at h
  obtain ⟨-, -, rfl⟩ := h
  let s1 : Store := { s with attempts := s.attempts.insert attempt }
  have hself : s1.account j = { s.account j with
      attempts := (s.account j).attempts ++ [⟨task.repairAttempts + 1, .ready, false⟩] } :=
    Store.account_insertAttempt hnew
  refine Moves.of_moveTask_after (t := t) (r := r) ?_ ?_ ?_ ?_ ?_
  · exact fun i hi => Store.account_insertAttempt_ne hi
  · exact fun hk => Store.keyed_insertAttempt hk ⟨_, _, rfl⟩
  · exact ht
  · exact hr
  · have hstep := CIStep.repair htask hlt
    rw [hcharges] at hself
    rw [show Store.account _ j = _ from hself]
    rwa [← hattempts]

theorem applyCIObservation_moves {lib : GoLib} {policy : CIRepairPolicy} (hk : s.Keyed)
    (hv : Accounted maxAttempts (s.account work.task.jobID)) (hw : TaskWaits work.task.jobID s)
    (h : applyCIObservation lib policy work observation maxAttempts now s = .ok s') :
    Moves maxAttempts work.task.jobID s s' := by
  obtain ⟨t, ht, hstate⟩ := hw
  simp only [applyCIObservation, require_bind_eq_ok] at h
  obtain ⟨-, -, -, h⟩ := h
  split at h
  · cases h
  next encoded _ =>
  simp only [ht, hstate] at h
  have haccount : (s.recordObservation lib work observation encoded t now).account = s.account :=
    recordObservation_account ht hstate
  have hattempts : (s.recordObservation lib work observation encoded t now).attempts =
      s.attempts := by
    unfold Store.recordObservation
    dsimp only
    split <;> rfl
  have hkeyed : s.Keyed → (s.recordObservation lib work observation encoded t now).Keyed :=
    fun hk => by rwa [Store.Keyed, hattempts]
  refine Moves.after_same (settleObservation_moves (hkeyed hk) ?_ ?_ ?_ h) haccount hkeyed
  · rwa [haccount]
  · rw [taskWaits_iff, haccount, account_task ht, hstate]
  · rw [haccount, account_repairAttempts ht]

end Observations

/-! ## Claims -/

section CIClaims

variable {maxAttempts now : Int} {tie : Nat} {policy : CIRepairPolicy} {s s' : Store}

theorem claimCIReconciliation_moves {work : Option CIReconciliation} (j : Int)
    (h : claimCIReconciliation tie now s = .ok (work, s')) : Moves maxAttempts j s s' := by
  unfold claimCIReconciliation at h
  dsimp only at h
  split at h <;> cases h <;> exact .of_tables rfl rfl rfl rfl

/-- A reconciliation is claimed for a task that waits. -/
theorem claimCIReconciliation_waits (h : claimCIReconciliation tie now s = .ok (some work, s')) :
    TaskWaits work.task.jobID s' := by
  unfold claimCIReconciliation at h
  dsimp only at h
  split at h
  · cases h
  next r t hpick =>
  cases h
  obtain ⟨-, ht, hwaits, -⟩ := mem_claimableReconciliations.mp (mem_of_pick hpick)
  have hid : t.jobID = r.jobID := Table.key_of_find? ht
  have hfind : s.ciTasks.find? t.jobID = some t := hid ▸ ht
  exact ⟨t, hfind, hwaits⟩

theorem Attending.updateAttempt {hf : ∀ a, (f a).attemptKey = a.attemptKey}
    (h : Attending attempt state s)
    (hsame : ∀ a, (f a).jobID = a.jobID ∧ (f a).attemptNumber = a.attemptNumber ∧
      (f a).state = a.state) : Attending attempt state (s.updateAttempt key p f hf) := by
  obtain ⟨a, ha, hjob, hnumber, hstate⟩ := h
  refine ⟨if decide (a.attemptKey = key) && p a then f a else a, ?_, ?_⟩
  · rw [Store.updateAttempt, Table.updateKey, Table.find?_update, ha, Option.map_some]
  · obtain ⟨hj, hn, hs⟩ := hsame a
    split
    · exact ⟨hj.trans hjob, hn.trans hnumber, hs.trans hstate⟩
    · exact ⟨hjob, hnumber, hstate⟩

/-- What a claim of an attempt knows about it. -/
theorem attending_of_claimable {taskState : CITaskState}
    (h : (t, a) ∈ s.claimableAttempts taskState state now) :
    Attending (a.toAttempt policy t.jobID) state s := by
  obtain ⟨ha, ht, -, hstate, -⟩ := mem_claimableAttempts.mp h
  have hid : t.jobID = a.jobID := Table.key_of_find? ht
  exact ⟨a, Table.find?_key ha, hid.symm, rfl, hstate⟩

/-- Following an attempt is not seen by an account, -/
theorem Follows.account {due : Int} (h : Follows due s s') :
    s'.account = s.account ∧ (s.Keyed → s'.Keyed) := by
  induction h with
  | refl => exact ⟨rfl, id⟩
  | @update _ _ _ f hf _ hrow ih =>
    have hentry : ∀ a, (f a).entry = a.entry := fun a => by
      simp only [AttemptRow.entry, (hrow a).number, (hrow a).state, (hrow a).charged]
    refine ⟨(Store.account_updateAttempt_same fun a => ⟨(hrow a).job, hentry a⟩).trans ih.1, ?_⟩
    exact fun hk =>
      Store.keyed_rewrite rfl (fun a => ⟨(hrow a).job, (hrow a).number, hf a⟩) (ih.2 hk)

theorem Follows.moves {due : Int} (j : Int) (h : Follows due s s') : Moves maxAttempts j s s' :=
  .of_same h.account.1 h.account.2

/-- and the attempt stays in hand. -/
theorem Follows.attending {due : Int} (h : Follows due s s') (ha : Attending attempt state s) :
    Attending attempt state s' := by
  induction h with
  | refl => exact ha
  | update _ hrow ih =>
    exact ih.updateAttempt fun a => ⟨(hrow a).job, (hrow a).number, (hrow a).state⟩

theorem claimCIRepair_attends {task : CIRepairTask}
    (h : claimCIRepair policy tie now s = .ok (some (task, attempt), s')) :
    Attending attempt .ready s' := by
  unfold claimCIRepair at h
  split at h
  · cases h
  · next t a hpick =>
    cases h
    exact (attending_of_claimable (mem_of_pick hpick)).updateAttempt fun _ => ⟨rfl, rfl, rfl⟩

theorem claimCIRepairStatus_attends {task : CIRepairTask}
    (h : claimCIRepairStatus policy tie now s = .ok (some (task, attempt), s')) :
    Attending attempt .running s' := by
  unfold claimCIRepairStatus at h
  split at h
  · cases h
  · next t a hpick =>
    cases h
    have hclaimed : Attending (a.toAttempt policy t.jobID) .running s :=
      attending_of_claimable (mem_of_pick hpick)
    refine Attending.updateAttempt (Attending.updateAttempt ?_ ?_) ?_
    · exact hclaimed
    all_goals exact fun _ => ⟨rfl, rfl, rfl⟩

end CIClaims

end SignalPlane.Dispatcher
