/-
SignalPlane.Pushscan.RegistryTheorems — fingerprints over time.

The registry inserts fingerprints and moves their state, maintenance prunes
them, and the scanner looks at them. `RegistryCall.step_cases` says once what a
call of the registry can write; the loop of the scanner relies on nothing more.

`fingerprints_forward` is about every sequence of such calls: as long as a row
is there, nothing of it changes but its state, and neither the state nor what
`MatchCandidate` makes of it with the clock goes back.
-/
import SignalPlane.Pushscan.Scanner

namespace SignalPlane.Pushscan

open Clock
open Dispatcher (GoError newError require_bind_eq_ok pure_eq_ok)

variable {r : FingerprintRow} {calls : List TimedCall} {fingerprint : List UInt8}
  {call : TimedCall}

/-! ## The registry -/

/-- The order in which the states follow each other. -/
def TokenState.rank : TokenState → Nat
  | .active => 0
  | .expired => 1
  | .revoked => 2

/-- The check of a registration that does not concern its times. -/
structure FingerprintRow.Complete (r : FingerprintRow) : Prop where
  digest : r.fingerprint.length = 32
  id : r.fingerprintID ≠ []
  profile : r.profile ≠ []
  session : r.logicalSessionID ≠ [] ∧ r.sessionLineageID ≠ []
  worker : r.workerID ≠ [] ∧ r.workerStorageLineage ≠ []
  epoch : 0 < r.workerFenceEpoch
  generation : 0 < r.profileGeneration

/-- The times of a registration are in order. -/
def FingerprintRegistration.InOrder (r : FingerprintRegistration) : Prop :=
  r.issuedAt < r.expiresAt ∧ r.expiresAt ≤ r.retainedUntil

section Registry

variable {s s' : Store}

/-- A registration is inserted, or says what is already there. -/
theorem registerFingerprint_eq_ok {r : FingerprintRegistration} :
    registerFingerprint fingerprint r s = .ok s' ↔ ∃ state, r.state = some state ∧
      (r.row fingerprint state).Complete ∧ r.InOrder ∧
      ((s.sameFingerprint (r.row fingerprint state) = [] ∧
          s' = { s with fingerprints := s.fingerprints.insert (r.row fingerprint state) }) ∨
        (s.sameFingerprint (r.row fingerprint state) = [r.row fingerprint state] ∧ s' = s)) := by
  unfold registerFingerprint
  dsimp only
  split
  · next hbad =>
    simp only [reduceCtorEq, false_iff, not_exists]
    rintro state ⟨-, hcomplete, horder, -⟩
    obtain ⟨hdigest, hid, hprofile, hsession, hworker, hepoch, hgeneration⟩ := hcomplete
    simp only [FingerprintRegistration.row]
      at hdigest hid hprofile hsession hworker hepoch hgeneration
    obtain ⟨hissued, hretained⟩ := horder
    simp only [hdigest, hid, hprofile, hsession, hworker, ne_eq, not_true_eq_false, false_or]
      at hbad
    omega
  · next hgood =>
    simp only [not_or, not_not, not_le, not_lt] at hgood
    obtain ⟨hdigest, hid, hprofile, hlogical, hlineage, hworker, hstorage, hepoch, hgeneration,
      hissued, hretained⟩ := hgood
    have hcomplete (state : TokenState) : (r.row fingerprint state).Complete :=
      ⟨hdigest, hid, hprofile, ⟨hlogical, hlineage⟩, ⟨hworker, hstorage⟩, hepoch, hgeneration⟩
    cases hstate : r.state with
    | none => simp
    | some state =>
      have hinsert : insertFingerprint (r.row fingerprint state) s = .ok s' ↔
          (s.sameFingerprint (r.row fingerprint state) = [] ∧
            s' = { s with fingerprints := s.fingerprints.insert (r.row fingerprint state) }) ∨
          (s.sameFingerprint (r.row fingerprint state) = [r.row fingerprint state] ∧ s' = s) := by
        unfold insertFingerprint
        split
        · next hnone => simp [hnone, @eq_comm _ s']
        · next hsome =>
          split
          · next hone => simp [hone, @eq_comm _ s']
          · next hother => simp [hsome, hother]
      simp only [hinsert, Option.some.injEq]
      constructor
      · exact fun h => ⟨state, rfl, hcomplete state, ⟨hissued, hretained⟩, h⟩
      · rintro ⟨_, rfl, -, -, h⟩
        exact h

/-- What a call of the registry writes: nothing, a row with a new id and a new digest, or the state
of one row. -/
theorem RegistryCall.step_cases (call : RegistryCall) (s : Store) :
    call.step s = s ∨
      (∃ row : FingerprintRow, row.Complete ∧ s.sameFingerprint row = [] ∧
        call.step s = { s with fingerprints := s.fingerprints.insert row }) ∨
      ∃ id next, next ≠ .active ∧ call.step s = { s with
        fingerprints := s.fingerprints.updateKey id next.isReachable
          (fun r => { r with state := next }) (fun _ => rfl) } := by
  unfold RegistryCall.step
  cases hexec : call.exec s with
  | error err => exact .inl rfl
  | ok s' =>
    cases call with
    | register fingerprint registration =>
      obtain ⟨state, -, hcomplete, -, hcase⟩ := registerFingerprint_eq_ok.mp hexec
      rcases hcase with ⟨hnew, rfl⟩ | ⟨-, rfl⟩
      · exact .inr (.inl ⟨_, hcomplete, hnew, rfl⟩)
      · exact .inl rfl
    | transition id state =>
      simp only [RegistryCall.exec, transitionFingerprintState, require_bind_eq_ok] at hexec
      obtain ⟨hvalid, -, hexec⟩ := hexec
      cases hexec
      refine .inr (.inr ⟨id, state.getD .expired, fun hactive => hvalid (.inr ?_), rfl⟩)
      cases state with
      | none => simp
      | some state => simp [show state = .active from hactive]

/-- How a fingerprint may change. -/
structure FingerprintRow.MovesTo (r r' : FingerprintRow) : Prop where
  kept : r' = { r with state := r'.state }
  forward : r.state.rank ≤ r'.state.rank

theorem FingerprintRow.MovesTo.refl (r : FingerprintRow) : r.MovesTo r := ⟨rfl, le_rfl⟩

theorem FingerprintRow.MovesTo.trans {r' r'' : FingerprintRow} (h : r.MovesTo r')
    (h' : r'.MovesTo r'') : r.MovesTo r'' := by
  refine ⟨?_, h.forward.trans h'.forward⟩
  rw [h'.kept, h.kept]

theorem TokenState.le_rank {next : TokenState} (hnext : next ≠ .active)
    (h : next.isReachable r = true) : r.state.rank ≤ next.rank := by
  cases hstate : r.state <;> cases next <;> simp_all [TokenState.isReachable, TokenState.rank]

/-- A fingerprint that is registered stays. -/
theorem RegistryCall.step_row (call : RegistryCall) {id : GoString}
    (hr : s.fingerprints.find? id = some r) :
    ∃ r', (call.step s).fingerprints.find? id = some r' ∧ r.MovesTo r' := by
  rcases call.step_cases s with h | ⟨row, -, -, h⟩ | ⟨id', next, hnext, h⟩
  · exact ⟨r, by rw [h]; exact hr, .refl r⟩
  · exact ⟨r, by rw [h]; exact Table.find?_insert_of_some hr, .refl r⟩
  · refine ⟨_, by rw [h, Table.updateKey, Table.find?_update, hr]; rfl, ?_⟩
    dsimp only
    split
    · next hp => exact ⟨rfl, TokenState.le_rank hnext (Bool.and_eq_true_iff.mp hp).2⟩
    · exact .refl r

end Registry

/-! ## Sequences of calls -/

/-- What is done with the fingerprints. -/
inductive FingerprintCall where
  | registry (call : RegistryCall)
  | prune
  | matchCandidate (key candidate : GoString)

/-- A call, with the time at which it is made. -/
abbrev TimedCall := FingerprintCall × Int

def TimedCall.step (s : Store) : TimedCall → Store
  | (.registry call, _) => call.step s
  | (.prune, now) => pruneFingerprints now s
  | (.matchCandidate .., _) => s

def runCalls (calls : List TimedCall) (s : Store) : Store := calls.foldl TimedCall.step s

/-- What `MatchCandidate` reports for the fingerprint, if that is what it finds. -/
def TimedCall.report (lib : ScanLib) (id : GoString) (s : Store) : TimedCall → Option TokenState
  | (.matchCandidate key candidate, now) =>
    (s.matchCandidate lib key candidate now).bind fun a =>
      if a.fingerprintID = id then a.state else none
  | _ => none

/-- The states that `MatchCandidate` reports for the fingerprint, one after the other. -/
def reports (lib : ScanLib) (id : GoString) : List TimedCall → Store → List TokenState
  | [], _ => []
  | call :: calls, s =>
    (TimedCall.report lib id s call).toList ++ reports lib id calls (TimedCall.step s call)

/-- The fingerprint is there all the time. -/
def Stays (id : GoString) (calls : List TimedCall) (s : Store) : Prop :=
  ∀ earlier, earlier <+: calls → (runCalls earlier s).fingerprints.find? id ≠ none

/-- Ids and digests correspond, and every row passed the check. -/
structure Registered (s : Store) : Prop where
  digests : ∀ a ∈ s.fingerprints.rows, ∀ b ∈ s.fingerprints.rows,
    a.fingerprint = b.fingerprint → a = b
  complete : ∀ r ∈ s.fingerprints.rows, r.Complete

section Calls

variable {s : Store} {id : GoString}

theorem Registered.empty : Registered Store.empty :=
  ⟨fun _ h => (by cases h), fun _ h => (by cases h)⟩

/-- Rows go, or change their state. -/
theorem Registered.of_rows {s' : Store} (h : Registered s)
    (hrows : ∀ r' ∈ s'.fingerprints.rows, ∃ r ∈ s.fingerprints.rows,
      r' = { r with state := r'.state }) : Registered s' := by
  refine ⟨fun a ha b hb he => ?_, fun r' hr' => ?_⟩
  · obtain ⟨a0, ha0, hsame⟩ := hrows a ha
    obtain ⟨b0, hb0, hsame'⟩ := hrows b hb
    rw [hsame, hsame'] at he
    obtain rfl := h.digests a0 ha0 b0 hb0 he
    have hid : a.fingerprintID = b.fingerprintID := by rw [hsame, hsame']
    have hfind := Table.find?_key ha
    rw [hid, Table.find?_key hb] at hfind
    exact (Option.some.inj hfind).symm
  · obtain ⟨r, hr, hsame⟩ := hrows r' hr'
    obtain ⟨hdigest, hid, hprofile, hsession, hworker, hepoch, hgeneration⟩ := h.complete r hr
    rw [hsame]
    exact ⟨hdigest, hid, hprofile, hsession, hworker, hepoch, hgeneration⟩

theorem Registered.step (h : Registered s) (call : TimedCall) : Registered (call.step s) := by
  obtain ⟨call, now⟩ := call
  cases call with
  | matchCandidate _ _ => exact h
  | prune => exact h.of_rows fun r hr => ⟨r, (Table.mem_delete.mp hr).1, rfl⟩
  | registry call =>
    simp only [TimedCall.step]
    rcases call.step_cases s with hstep | ⟨row, hcomplete, hnew, hstep⟩ | ⟨id, next, -, hstep⟩
    · rwa [hstep]
    · -- No row has the digest of the new one.
      have hother : ∀ a ∈ s.fingerprints.rows, a.fingerprint ≠ row.fingerprint := by
        intro a ha he
        have := List.filter_eq_nil_iff.mp hnew a ha
        simp [he] at this
      rw [hstep]
      refine ⟨fun a ha b hb he => ?_, Table.forall_insert h.complete hcomplete⟩
      rcases Table.mem_insert.mp ha with ha1 | ⟨-, ha1⟩ <;>
        rcases Table.mem_insert.mp hb with hb1 | ⟨-, hb1⟩
      · exact h.digests a ha1 b hb1 he
      · exact absurd (hb1 ▸ he) (hother a ha1)
      · exact absurd (ha1 ▸ he.symm) (hother b hb1)
      · exact ha1.trans hb1.symm
    · rw [hstep]
      refine h.of_rows fun r' hr' => ?_
      obtain ⟨r, hr, rfl⟩ := List.mem_map.mp hr'
      refine ⟨r, hr, ?_⟩
      split <;> rfl

theorem Registered.run (h : Registered s) (calls : List TimedCall) :
    Registered (runCalls calls s) := by
  induction calls generalizing s with
  | nil => exact h
  | cons call calls ih => exact ih (h.step call)

/-- A row that is there after a call as well has moved at most. -/
theorem TimedCall.step_row (call : TimedCall) {r' : FingerprintRow}
    (hr : s.fingerprints.find? id = some r) (hr' : (call.step s).fingerprints.find? id = some r') :
    r.MovesTo r' := by
  obtain ⟨call, now⟩ := call
  cases call with
  | registry call =>
    obtain ⟨r1, hr1, hmoves⟩ := call.step_row hr
    obtain rfl := Option.mem_unique hr1 hr'
    exact hmoves
  | prune =>
    have hmem := Table.mem_delete.mp (Table.mem_of_find? hr')
    have hsame : s.fingerprints.find? r'.fingerprintID = some r' := Table.find?_key hmem.1
    rw [show r'.fingerprintID = id from Table.key_of_find? hr', hr] at hsame
    obtain rfl := Option.some.inj hsame
    exact .refl r
  | matchCandidate _ _ =>
    obtain rfl := Option.mem_unique hr hr'
    exact .refl r

theorem Stays.head (h : Stays id calls s) : ∃ r, s.fingerprints.find? id = some r :=
  Option.ne_none_iff_exists'.mp (h [] List.nil_prefix)

theorem Stays.tail (h : Stays id (call :: calls) s) : Stays id calls (call.step s) :=
  fun earlier hearlier => h (call :: earlier) (List.cons_prefix_cons.mpr ⟨rfl, hearlier⟩)

/-- As long as it stays, a row moves. -/
theorem Stays.moves (h : Stays id calls s) (hr : s.fingerprints.find? id = some r) :
    ∃ r', (runCalls calls s).fingerprints.find? id = some r' ∧ r.MovesTo r' := by
  induction calls generalizing s r with
  | nil => exact ⟨r, hr, .refl r⟩
  | cons call calls ih =>
    obtain ⟨r1, hr1⟩ := h.tail.head
    obtain ⟨r', hr', hmoves⟩ := ih h.tail hr1
    exact ⟨r', hr', (TimedCall.step_row call hr hr1).trans hmoves⟩

/-- What a row shows does not go back. -/
theorem FingerprintRow.MovesTo.shows_le {r' : FingerprintRow} (h : r.MovesTo r') {now now' : Int}
    (hnow : now ≤ now') : (r.shows now).rank ≤ (r'.shows now').rank := by
  have hexpires : r'.expiresAt = r.expiresAt := by rw [h.kept]
  have hforward := h.forward
  unfold FingerprintRow.shows
  rw [hexpires]
  split
  · next hexpired =>
    split
    · exact le_rfl
    · next hlive =>
      have hstate : r'.state ≠ .active := fun hactive =>
        hlive ⟨hactive, fun hlt => hexpired.2 (lt_of_le_of_lt hnow hlt)⟩
      cases hr' : r'.state <;> simp_all [TokenState.rank]
  · split
    · next hexpired =>
      rw [hexpired.1] at hforward
      exact hforward.trans (by decide)
    · exact hforward

/-- A report is what the row of the fingerprint shows. -/
theorem TimedCall.report_eq {lib : ScanLib} {state : TokenState}
    (h : call.report lib id s = some state) :
    ∃ r, s.fingerprints.find? id = some r ∧ state = r.shows call.2 := by
  obtain ⟨call, now⟩ := call
  cases call with
  | registry call => cases h
  | prune => cases h
  | matchCandidate key candidate =>
    simp only [TimedCall.report, Store.matchCandidate, Option.bind_eq_some_iff,
      Option.map_eq_some_iff] at h
    obtain ⟨_, ⟨r, hr, rfl⟩, h⟩ := h
    split at h
    · next hid =>
      obtain rfl : r.fingerprintID = id := hid
      exact ⟨r, Table.find?_key (List.mem_of_find?_eq_some hr), (Option.some.inj h).symm⟩
    · cases h

/-- Every report of a row that stays is at least what the row showed before. -/
theorem reports_ge {lib : ScanLib} {now : Int} (htimes : ∀ call ∈ calls, now ≤ call.2)
    (h : Stays id calls s) (hr : s.fingerprints.find? id = some r) :
    ∀ state ∈ reports lib id calls s, (r.shows now).rank ≤ state.rank := by
  induction calls generalizing s r with
  | nil => exact fun _ hstate => (by cases hstate)
  | cons call calls ih =>
    intro state hstate
    rcases List.mem_append.mp hstate with hstate | hstate
    · obtain ⟨r', hr', rfl⟩ := TimedCall.report_eq (Option.mem_toList.mp hstate)
      obtain rfl := Option.mem_unique hr hr'
      exact (FingerprintRow.MovesTo.refl r).shows_le (htimes call List.mem_cons_self)
    · obtain ⟨r1, hr1⟩ := h.tail.head
      have hlater := ih (fun c hc => htimes c (List.mem_cons_of_mem _ hc)) h.tail hr1 state hstate
      exact ((TimedCall.step_row call hr hr1).shows_le le_rfl).trans hlater

theorem reports_forward {lib : ScanLib} (htimes : calls.Pairwise fun a b => a.2 ≤ b.2)
    (h : Stays id calls s) : (reports lib id calls s).Pairwise fun a b => a.rank ≤ b.rank := by
  induction calls generalizing s with
  | nil => exact .nil
  | cons call calls ih =>
    obtain ⟨hfirst, hrest⟩ := List.pairwise_cons.mp htimes
    refine List.pairwise_append.mpr ⟨?_, ih hrest h.tail, fun state hstate later hlater => ?_⟩
    · cases call.report lib id s <;> simp
    · obtain ⟨r, hr, rfl⟩ := TimedCall.report_eq (Option.mem_toList.mp hstate)
      obtain ⟨r1, hr1⟩ := h.tail.head
      have hlater := reports_ge hfirst h.tail hr1 later hlater
      exact ((TimedCall.step_row call hr hr1).shows_le le_rfl).trans hlater

/-- A registration for a row that is there. -/
theorem Registered.repeated (h : Registered s) {registration : FingerprintRegistration}
    (hr : r ∈ s.fingerprints.rows)
    (hsame : r.fingerprintID = registration.fingerprintID ∨ r.fingerprint = fingerprint) :
    ((∃ s', registerFingerprint fingerprint registration s = .ok s') ↔ registration.InOrder ∧
      ∃ state, registration.state = some state ∧ r = registration.row fingerprint state) ∧
    ∀ s', registerFingerprint fingerprint registration s = .ok s' → s' = s := by
  have hmem (state : TokenState) : r ∈ s.sameFingerprint (registration.row fingerprint state) :=
    List.mem_filter.mpr ⟨hr, by rcases hsame with h | h <;> simp [FingerprintRegistration.row, h]⟩
  refine ⟨⟨?_, ?_⟩, fun s' hs' => ?_⟩
  · rintro ⟨s', hs'⟩
    obtain ⟨state, hstate, -, horder, ⟨hnone, -⟩ | ⟨hone, -⟩⟩ := registerFingerprint_eq_ok.mp hs'
    · have := hmem state
      rw [hnone] at this
      cases this
    · refine ⟨horder, state, hstate, ?_⟩
      have := hmem state
      rw [hone] at this
      exact List.mem_singleton.mp this
  · rintro ⟨horder, state, hstate, rfl⟩
    refine ⟨s, registerFingerprint_eq_ok.mpr
      ⟨state, hstate, h.complete _ hr, horder, .inr ⟨?_, rfl⟩⟩⟩
    -- Neither the id nor the digest is that of another row.
    have hall : ∀ b ∈ s.sameFingerprint (registration.row fingerprint state),
        b = registration.row fingerprint state := by
      intro b hb
      obtain ⟨hb, hboth⟩ := List.mem_filter.mp hb
      rcases Bool.or_eq_true_iff.mp hboth with hid | hdigest
      · have hfind := Table.find?_key hb
        rw [show b.fingerprintID = _ from of_decide_eq_true hid] at hfind
        exact (Option.mem_unique (Table.find?_key hr) hfind).symm
      · exact h.digests b hb _ hr (of_decide_eq_true hdigest)
    have hnodup : (s.sameFingerprint (registration.row fingerprint state)).Nodup :=
      (List.Nodup.of_map _ s.fingerprints.nodup).filter _
    exact List.perm_singleton.mp ((List.perm_ext_iff_of_nodup hnodup (List.nodup_singleton _)).mpr
      fun b => ⟨fun hb => List.mem_singleton.mpr (hall b hb),
        fun hb => List.mem_singleton.mp hb ▸ hmem state⟩)
  · obtain ⟨state, -, -, -, ⟨hnone, -⟩ | ⟨-, rfl⟩⟩ := registerFingerprint_eq_ok.mp hs'
    · have := hmem state
      rw [hnone] at this
      cases this
    · rfl

end Calls

/-! ## Only forward -/

/-- What holds of the fingerprints of `s` while the calls are made. -/
structure Forward (lib : ScanLib) (calls : List TimedCall) (s : Store) : Prop where
  /-- Ids and digests correspond to each other. -/
  bijective : ∀ a ∈ s.fingerprints.rows, ∀ b ∈ s.fingerprints.rows,
    a.fingerprintID = b.fingerprintID ↔ a.fingerprint = b.fingerprint
  /-- A row that stays keeps everything but its state. -/
  kept : ∀ id, Stays id calls s → ∃ r r', s.fingerprints.find? id = some r ∧
    (runCalls calls s).fingerprints.find? id = some r' ∧ r' = { r with state := r'.state }
  /-- What is reported for it does not go back. -/
  reported : ∀ id, Stays id calls s →
    (reports lib id calls s).Pairwise fun a b => a.rank ≤ b.rank
  /-- A registration for a row that is there succeeds if it says what the row says and its times
  are in order, and changes nothing. -/
  repeated : ∀ fingerprint registration, ∀ r ∈ s.fingerprints.rows,
    r.fingerprintID = registration.fingerprintID ∨ r.fingerprint = fingerprint →
    ((∃ s', registerFingerprint fingerprint registration s = .ok s') ↔ registration.InOrder ∧
      ∃ state, registration.state = some state ∧ r = registration.row fingerprint state) ∧
    ∀ s', registerFingerprint fingerprint registration s = .ok s' → s' = s

/-- Fingerprints only move forward, whatever is called in whatever order. -/
theorem fingerprints_forward (lib : ScanLib) (before calls : List TimedCall)
    (htimes : (before ++ calls).Pairwise fun a b => a.2 ≤ b.2) :
    Forward lib calls (runCalls before .empty) := by
  have hregistered := Registered.empty.run before
  refine ⟨fun a ha b hb => ⟨fun hid => ?_, fun hdigest => ?_⟩, fun id hstays => ?_,
    fun id hstays => ?_, fun fingerprint registration r hr => hregistered.repeated hr⟩
  · have hfind := Table.find?_key ha
    rw [hid, Table.find?_key hb] at hfind
    rw [Option.some.inj hfind]
  · rw [hregistered.digests a ha b hb hdigest]
  · obtain ⟨r, hr⟩ := hstays.head
    obtain ⟨r', hr', hmoves⟩ := hstays.moves hr
    exact ⟨r, r', hr, hr', hmoves.kept⟩
  · exact reports_forward (List.pairwise_append.mp htimes).2.1 hstays

namespace Sample

def fingerprintKey : GoString := lit "0123456789abcdef0123456789abcdef"

def token : GoString := lit "Zk3qP9xT7mW2vB5n"

/-- HMAC-SHA-256 of the token under the key. -/
def tokenDigest : List UInt8 :=
  [165, 77, 236, 202, 41, 152, 41, 244, 243, 117, 91, 6, 194, 240, 192, 65, 182, 200, 24, 9, 131,
   156, 20, 29, 134, 135, 233, 21, 163, 183, 241, 98]

/-- HMAC-SHA-256 of some texts under the key. -/
def digests : List (GoString × List UInt8) :=
  [(token, tokenDigest),
   (lit "token Zk3qP9xT7mW2vB5n.",
    [51, 105, 255, 246, 62, 224, 165, 158, 115, 118, 113, 30, 179, 130, 53, 88, 4, 88, 100, 173,
     219, 208, 59, 17, 65, 59, 40, 66, 160, 91, 152, 69]),
   (lit "Zk3qP9xT7mW2vB5n.",
    [118, 230, 104, 44, 254, 196, 144, 14, 103, 145, 199, 41, 39, 23, 144, 144, 110, 133, 126,
     121, 156, 193, 27, 221, 99, 17, 148, 73, 25, 215, 97, 174]),
   ([102, 77, 234, 63, 220, 83, 238, 101, 182, 188, 30, 103],
    [251, 215, 247, 122, 117, 78, 77, 193, 165, 208, 242, 10, 8, 32, 153, 65, 138, 90, 112, 31,
     200, 164, 234, 154, 131, 48, 123, 183, 82, 175, 195, 248]),
   (lit "key WmszcVA5eFQ%33bVcydkI1bg==",
    [245, 109, 219, 124, 190, 125, 161, 142, 244, 132, 252, 63, 2, 151, 213, 23, 30, 169, 148, 34,
     11, 102, 241, 145, 75, 13, 115, 137, 106, 118, 161, 1]),
   (lit "key WmszcVA5eFQ3bVcydkI1bg==",
    [185, 214, 119, 2, 226, 251, 222, 133, 203, 238, 24, 159, 106, 95, 51, 96, 86, 85, 54, 93,
     155, 111, 187, 66, 241, 181, 129, 4, 146, 97, 30, 221]),
   (lit "WmszcVA5eFQ3bVcydkI1bg",
    [188, 214, 102, 100, 175, 187, 14, 96, 218, 223, 89, 45, 193, 135, 69, 86, 235, 192, 99, 121,
     240, 83, 89, 168, 21, 178, 181, 139, 168, 16, 198, 253])]

/-- SHA-256 of what the finding ids of a match in delivery `d1` are made of, by reason. -/
def findingHashes : List (GoString × List UInt8) :=
  [(lit "issued_token_fingerprint_match",
    [195, 231, 96, 113, 36, 99, 130, 34, 96, 138, 56, 43, 84, 128, 145, 10, 241, 60, 158, 102,
     148, 16, 162, 107, 139, 23, 204, 112, 9, 185, 93, 129]),
   (lit "expired_token_fingerprint_match",
    [144, 191, 153, 190, 191, 141, 25, 169, 29, 127, 126, 195, 223, 129, 29, 253, 143, 131, 58,
     204, 225, 177, 12, 54, 137, 53, 166, 113, 225, 30, 83, 119]),
   (lit "revoked_token_fingerprint_match",
    [88, 20, 196, 215, 60, 181, 239, 200, 231, 80, 215, 137, 136, 208, 46, 13, 230, 17, 9, 103,
     26, 220, 2, 133, 74, 22, 166, 28, 188, 136, 251, 55])]

def lib : ScanLib where
  sha256 text := ((findingHashes.find? fun entry =>
    lit "d1" ++ [0] ++ entry.1 ++ [0] ++ lit "fp-1" = text).map (·.2)).getD []
  hmacSHA256 _ text := (digests.lookup text).getD []
  unmarshalSignal _ := none

def registration : FingerprintRegistration where
  fingerprintID := lit "fp-1"
  profile := lit "p"
  logicalSessionID := lit "l"
  sessionLineageID := lit "s"
  workerID := lit "w"
  workerStorageLineage := lit "v"
  workerFenceEpoch := 1
  profileGeneration := 1
  issuedAt := 0
  expiresAt := 1
  retainedUntil := hour
  state := some .active

def registered : Store := runCalls [(.registry (.register tokenDigest registration), 0)] .empty

end Sample

open Sample in
/-- A token that is registered, revoked and looked for. -/
theorem fingerprints_forward_revoked :
    Forward lib
      [(.registry (.transition (lit "fp-1") (some .revoked)), 1),
        (.matchCandidate fingerprintKey token, 2)] registered :=
  fingerprints_forward lib _ _ (by decide)

open Sample in
/-- Two times within one millisecond are the same in the row, but not in order in the registration:
one that says what the row says is refused. -/
theorem equal_registration_refused :
    { Sample.registration with issuedAt := 1 }.row tokenDigest .active ∈
        registered.fingerprints.rows ∧
      registerFingerprint tokenDigest { Sample.registration with issuedAt := 1 }
        registered = .error (newError "fingerprint registration is incomplete") := by
  decide +kernel

end SignalPlane.Pushscan
