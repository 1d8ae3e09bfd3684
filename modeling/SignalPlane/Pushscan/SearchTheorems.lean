/-
SignalPlane.Pushscan.SearchTheorems — what `scanValues` visits.

The queue and the values seen are a breadth-first search over
`reversibleDecodings`: every nonempty value is visited at most once, in order of
depth, at its distance from the inputs, and no deeper than the bound
(`Explores`). Each round takes one value from the queue and queues only what
was not seen, so `MaxCandidates` rounds empty it.

`scanTrail` is `scanValues` with what it visited written down: what it returns
is what `scanValues` returns (`scanTrail_result`). A trail is looked at whatever
the clock and the registry say between two rounds (`Returns`).
-/
import SignalPlane.Lib.BreadthFirst
import SignalPlane.Pushscan.RegistryTheorems

namespace SignalPlane.Pushscan

open BreadthFirst
open Dispatcher (GoError)
open Workflow

/-! ## Decodings -/

/-- What the search goes on with: an empty value is not queued. -/
def decodings (value : GoString) : List GoString :=
  (reversibleDecodings value).filter fun decoded => decoded ≠ []

theorem mem_decodings {v w : GoString} : w ∈ decodings v ↔ w ∈ reversibleDecodings v ∧ w ≠ [] := by
  simp [decodings]

/-- The search leaves out the empty value, which has no decodings. -/
theorem steps_decodings_iff {n : Nat} {v w : GoString} :
    v ≠ [] ∧ Steps decodings n v w ↔ Steps reversibleDecodings n v w ∧ w ≠ [] := by
  constructor
  · rintro ⟨hv, h⟩
    induction h with
    | zero v => exact ⟨.zero v, hv⟩
    | succ _ hmem ih => exact ⟨(ih hv).1.succ (mem_decodings.mp hmem).1, (mem_decodings.mp hmem).2⟩
  · rintro ⟨h, hw⟩
    induction h with
    | zero v => exact ⟨hw, .zero v⟩
    | @succ n v u w _ hmem ih =>
      have hu : u ≠ [] := by
        rintro rfl
        cases hmem
      exact ⟨(ih hu).1, (ih hu).2.succ (mem_decodings.mpr ⟨hmem, hw⟩)⟩

/-- What the nonempty inputs lead to. -/
theorem reached_iff {inputs : List GoString} {n : Nat} {w : GoString} :
    (∃ v ∈ inputs.filter fun v => v ≠ [], Steps decodings n v w) ↔
      (∃ v ∈ inputs, Steps reversibleDecodings n v w) ∧ w ≠ [] := by
  simp only [List.mem_filter, decide_eq_true_eq, and_assoc, steps_decodings_iff]
  exact ⟨fun ⟨v, hv, hsteps, hw⟩ => ⟨⟨v, hv, hsteps⟩, hw⟩,
    fun ⟨⟨v, hv, hsteps⟩, hw⟩ => ⟨v, hv, hsteps, hw⟩⟩

/-! ## The search -/

variable {bounds : Bounds} {depth : Nat} {inputs seen values : List GoString}
  {done queue : List QueuedValue} {search search' : Search}

/-- `new` is what `addAll` appends. -/
structure Search.Adds (bounds : Bounds) (depth : Nat) (values : List GoString) (search : Search)
    (new : List QueuedValue) : Prop where
  depth : ∀ x ∈ new, x.depth = depth
  value : ∀ x ∈ new, x.value ∈ values ∧ x.value ≠ []
  covers : ∀ v ∈ values, v ≠ [] → v ∈ search.seen ++ new.map (·.value)
  distinct : search.seen.Nodup → (search.seen ++ new.map (·.value)).Nodup
  room : search.seen.length ≤ bounds.maxCandidates.toNat →
    search.seen.length + new.length ≤ bounds.maxCandidates.toNat

theorem Search.addAll_spec (h : search.addAll bounds depth values = .ok search') :
    ∃ new, search' = ⟨search.queue ++ new, search.seen ++ new.map (·.value)⟩ ∧
      search.Adds bounds depth values new := by
  induction values generalizing search with
  | nil =>
    cases h
    exact ⟨[], by simp, by simp, by simp, by simp, by simp, by simp⟩
  | cons value values ih =>
    obtain ⟨middle, hadd, hrest⟩ := Dispatcher.bind_eq_ok.mp h
    -- A value that is empty or was seen is passed over.
    have hpassed (hold : value ≠ [] → value ∈ search.seen) (hsame : middle = search) :
        ∃ new, search' = ⟨search.queue ++ new, search.seen ++ new.map (·.value)⟩ ∧
          search.Adds bounds depth (value :: values) new := by
      subst hsame
      obtain ⟨new, hsearch, hnew⟩ := ih hrest
      refine ⟨new, hsearch, hnew.depth, fun x hx => ?_, fun v hv hne => ?_, hnew.distinct,
        hnew.room⟩
      · exact ⟨List.mem_cons_of_mem _ (hnew.value x hx).1, (hnew.value x hx).2⟩
      · rcases List.mem_cons.mp hv with rfl | hv
        · exact List.mem_append_left _ (hold hne)
        · exact hnew.covers v hv hne
    unfold Search.add at hadd
    split at hadd
    · next hempty =>
      cases hadd
      exact hpassed (fun hne => absurd hempty hne) rfl
    split at hadd
    · next hseen =>
      cases hadd
      exact hpassed (fun _ => hseen) rfl
    split at hadd
    · cases hadd
    next hempty hseen hroom =>
      cases hadd
      obtain ⟨new, rfl, hnew⟩ := ih hrest
      have hcovers := hnew.covers
      have hdistinct := hnew.distinct
      have hbound := hnew.room
      simp only [List.append_assoc, List.singleton_append, List.length_append,
        List.length_singleton] at hcovers hdistinct hbound
      refine ⟨⟨value, depth⟩ :: new, by simp, ?_, ?_, ?_, ?_, ?_⟩
      · rintro x (_ | ⟨_, hx⟩)
        · rfl
        · exact hnew.depth x hx
      · rintro x (_ | ⟨_, hx⟩)
        · exact ⟨List.mem_cons_self, hempty⟩
        · exact ⟨List.mem_cons_of_mem _ (hnew.value x hx).1, (hnew.value x hx).2⟩
      · intro v hv hne
        rcases List.mem_cons.mp hv with rfl | hv
        · simp
        · exact hcovers v hv hne
      · intro hnodup
        refine hdistinct (List.nodup_append.mpr ⟨hnodup, by simp, fun v hv w hw => ?_⟩)
        rw [List.mem_singleton.mp hw]
        rintro rfl
        exact hseen hv
      · intro _
        rw [List.length_cons]
        omega

/-- `done` was visited, and `search` is left. -/
structure Explores (bounds : Bounds) (inputs : List GoString) (done : List QueuedValue)
    (search : Search) : Prop where
  frontier : Frontier QueuedValue.value QueuedValue.depth decodings bounds.maxDecodeDepth.toNat
    (inputs.filter fun v => v ≠ []) done search.queue
  seen : search.seen = (done ++ search.queue).map (·.value)
  bounded : search.seen.length ≤ bounds.maxCandidates.toNat

/-- The search starts with the inputs. -/
theorem Explores.start (h : Search.addAll bounds 0 inputs ⟨[], []⟩ = .ok search) :
    Explores bounds inputs [] search := by
  obtain ⟨new, rfl, hnew⟩ := Search.addAll_spec h
  refine ⟨.initial hnew.depth (hnew.distinct .nil) (fun v hv => ?_) fun x hx => ?_, rfl, ?_⟩
  · obtain ⟨hv, hne⟩ := List.mem_filter.mp hv
    exact hnew.covers v hv (of_decide_eq_true hne)
  · exact List.mem_filter.mpr ⟨(hnew.value x hx).1, decide_eq_true (hnew.value x hx).2⟩
  · simpa using hnew.room (Nat.zero_le _)

/-- One round of the search. -/
theorem Explores.expand {sc : Scanner} {current : QueuedValue}
    (h : Explores sc.bounds inputs done ⟨current :: queue, seen⟩)
    (hexpand : sc.expand current ⟨queue, seen⟩ = .ok search) :
    Explores sc.bounds inputs (done ++ [current]) search := by
  unfold Scanner.expand at hexpand
  have hseen : seen = (done ++ current :: queue).map (·.value) := h.seen
  split at hexpand
  · next hdeep =>
    split at hexpand
    · cases hexpand
    · cases hexpand
      refine ⟨?_, by simpa using hseen, h.bounded⟩
      rw [← List.append_nil queue]
      refine h.frontier.take (by simp) ?_ fun hlt => by omega
      rw [List.append_nil]
      exact h.frontier.distinct
  · next hdeep =>
    obtain ⟨new, rfl, hnew⟩ := Search.addAll_spec hexpand
    have hall : seen ++ new.map (·.value) = (done ++ current :: queue ++ new).map (·.value) := by
      rw [hseen, ← List.map_append]
    refine ⟨h.frontier.take (fun x hx => ⟨hnew.depth x hx, by omega, ?_⟩) ?_ fun _ w hw => ?_,
      by simp [hseen], ?_⟩
    · exact mem_decodings.mpr (hnew.value x hx)
    · rw [← hall]
      exact hnew.distinct (hseen ▸ h.frontier.distinct)
    · obtain ⟨hdecoded, hne⟩ := mem_decodings.mp hw
      exact List.mem_map.mp (hall ▸ hnew.covers w hdecoded hne)
    · simpa using hnew.room h.bounded

/-! ## The trail of a scan -/

/-- What a scan visited, and what it returned. -/
structure Trail where
  visited : List QueuedValue
  /-- The loop ended by itself, and not for want of fuel. -/
  finished : Bool
  result : Except GoError (Option Finding)

/-- `scanLoop`, with what it visited so far. -/
def Scanner.trailLoop (lib : ScanLib) (sc : Scanner) (identity : PushIdentity) :
    Nat → List QueuedValue → Search → Option Finding → Task Trail
  | 0, visited, search, low => return ⟨visited, search.queue.isEmpty, .ok low⟩
  | fuel + 1, visited, search, low =>
    match search.queue with
    | [] => return ⟨visited, true, .ok low⟩
    | current :: queue =>
      if matchesCanary current.value then
        return ⟨visited ++ [current], true, .ok (some (sc.canaryFinding lib identity))⟩
      else do
        match ← matchCandidates lib sc.fingerprintKey (candidates current.value) with
        | some attribution =>
          return ⟨visited ++ [current], true, .ok (some (sc.matchFinding lib identity attribution))⟩
        | none =>
          match sc.expand current ⟨queue, search.seen⟩ with
          | .error err => return ⟨visited ++ [current], true, .error err⟩
          | .ok search =>
            sc.trailLoop lib identity fuel (visited ++ [current]) search
              (sc.lowAfter lib identity low current.value)

/-- `scanValues`, with what it visited. -/
def Scanner.scanTrail (lib : ScanLib) (sc : Scanner) (identity : PushIdentity)
    (inputs : List GoString) : Task Trail :=
  match Search.addAll sc.bounds 0 inputs ⟨[], []⟩ with
  | .error err => return ⟨[], true, .error err⟩
  | .ok search => sc.trailLoop lib identity sc.bounds.maxCandidates.toNat [] search none

section Trail

variable {lib : ScanLib} {sc : Scanner} {identity : PushIdentity} {low : Option Finding} {t : Trail}

theorem trailLoop_result (fuel : Nat) :
    (sc.trailLoop lib identity fuel done search low >>= fun t => pure t.result) =
      sc.scanLoop lib identity fuel search low := by
  induction fuel generalizing done search low with
  | zero => rfl
  | succ fuel ih =>
    obtain ⟨queue, seen⟩ := search
    cases queue with
    | nil => rfl
    | cons current queue =>
      simp only [Scanner.trailLoop, Scanner.scanLoop]
      split
      · rfl
      · rw [bind_assoc]
        congr 1
        funext r
        cases r with
        | some attribution => rfl
        | none =>
          dsimp only
          cases sc.expand current ⟨queue, seen⟩ with
          | error err => rfl
          | ok search => exact ih

theorem scanTrail_result (lib : ScanLib) (sc : Scanner) (identity : PushIdentity)
    (inputs : List GoString) :
    (sc.scanTrail lib identity inputs >>= fun t => pure t.result) =
      sc.scanValues lib identity inputs := by
  unfold Scanner.scanTrail Scanner.scanValues
  cases Search.addAll sc.bounds 0 inputs ⟨[], []⟩ with
  | error err => rfl
  | ok search => exact trailLoop_result _

/-- A scan ended without a match, a canary or an error. -/
def Trail.IsQuiet (t : Trail) : Prop :=
  ∃ low, t.result = .ok low ∧ ∀ finding, low = some finding → finding.severity ≠ .high

/-- What is visited, and when. -/
structure Canonical (bounds : Bounds) (inputs : List GoString) (visited : List QueuedValue) :
    Prop where
  once : (visited.map (·.value)).Nodup
  nonempty : ∀ x ∈ visited, x.value ≠ []
  few : visited.length ≤ bounds.maxCandidates
  ordered : visited.Pairwise fun x y => x.depth ≤ y.depth
  least : ∀ x ∈ visited,
    IsLeast {n | ∃ v ∈ inputs, Steps reversibleDecodings n v x.value} x.depth
  shallow : ∀ x ∈ visited, x.depth ≤ bounds.maxDecodeDepth

/-- What the inputs lead to within the decode depth was visited. -/
def Covers (bounds : Bounds) (inputs : List GoString) (visited : List QueuedValue) : Prop :=
  ∀ v ∈ inputs, ∀ (n : Nat) w, n ≤ bounds.maxDecodeDepth → Steps reversibleDecodings n v w →
    w ≠ [] → ∃ x ∈ visited, x.value = w

/-- Every part of what is there that nothing in the queue precedes was visited as it should be. -/
theorem Explores.canonical (h : Explores bounds inputs done ⟨queue, seen⟩)
    (hcandidates : 0 ≤ bounds.maxCandidates) (hdepth : 0 ≤ bounds.maxDecodeDepth)
    {visited : List QueuedValue} (hvisited : visited.Sublist (done ++ queue))
    (hqueue : ∀ x ∈ visited, ∀ y ∈ queue, x.depth ≤ y.depth) :
    Canonical bounds inputs visited := by
  have hmem {x : QueuedValue} (hx : x ∈ visited) : x ∈ done ++ queue := hvisited.subset hx
  have hnonempty : ∀ x ∈ visited, x.value ≠ [] := by
    intro x hx
    exact (reached_iff.mp (h.frontier.reached x (hmem hx))).2
  refine ⟨h.frontier.distinct.sublist (hvisited.map _), hnonempty, ?_,
    h.frontier.sorted.sublist hvisited, fun x hx => ?_, fun x hx => ?_⟩
  · have hbounded := h.bounded
    rw [h.seen, List.length_map] at hbounded
    have := hvisited.length_le
    simp only at hbounded
    omega
  · have hleast := h.frontier.least (hmem hx) (hqueue x hx)
    simpa only [reached_iff, hnonempty x hx, ne_eq, not_false_eq_true, and_true] using hleast
  · have := h.frontier.shallow x (hmem hx)
    omega

theorem Explores.covers (h : Explores bounds inputs done ⟨[], seen⟩)
    (hdepth : 0 ≤ bounds.maxDecodeDepth) : Covers bounds inputs done := by
  intro v hv n w hn hsteps hw
  obtain ⟨v, hv, hsteps⟩ := reached_iff.mpr ⟨⟨v, hv, hsteps⟩, hw⟩
  exact h.frontier.complete hsteps hv (by omega)

/-- The loop, with fuel for what may still be visited. -/
theorem trailLoop_canonical (hcandidates : 0 ≤ sc.bounds.maxCandidates)
    (hdepth : 0 ≤ sc.bounds.maxDecodeDepth) {fuel : Nat}
    (h : Explores sc.bounds inputs done search)
    (hfuel : sc.bounds.maxCandidates.toNat ≤ fuel + done.length)
    (ht : Returns (sc.trailLoop lib identity fuel done search low) t) :
    t.finished = true ∧ Canonical sc.bounds inputs t.visited ∧
      (t.IsQuiet → Covers sc.bounds inputs t.visited) := by
  induction fuel generalizing done search low with
  | zero =>
    obtain ⟨queue, seen⟩ := search
    have hbounded := h.bounded
    rw [h.seen, List.length_map, List.length_append] at hbounded
    obtain rfl : queue = [] := List.length_eq_zero_iff.mp (by simp only at hbounded; omega)
    cases ht
    exact ⟨rfl, h.canonical hcandidates hdepth (by simp) (by simp), fun _ => h.covers hdepth⟩
  | succ fuel ih =>
    obtain ⟨queue, seen⟩ := search
    cases queue with
    | nil =>
      cases ht
      exact ⟨rfl, h.canonical hcandidates hdepth (by simp) (by simp), fun _ => h.covers hdepth⟩
    | cons current queue =>
      -- Whatever the round comes to, its value is visited in order.
      have hcurrent : Canonical sc.bounds inputs (done ++ [current]) := by
        refine h.canonical hcandidates hdepth (by simp) fun x hx y hy => ?_
        have hsorted := List.pairwise_append.mp h.frontier.sorted
        rcases List.mem_append.mp hx with hx | hx
        · exact hsorted.2.2 x hx y hy
        · rw [List.mem_singleton.mp hx]
          rcases List.mem_cons.mp hy with rfl | hy
          · exact le_rfl
          · exact (List.pairwise_cons.mp hsorted.2.1).1 y hy
      have hloud {finding : Finding} (hhigh : finding.severity = .high) :
          ¬ (⟨done ++ [current], true, .ok (some finding)⟩ : Trail).IsQuiet := by
        rintro ⟨low, hlow, hquiet⟩
        cases hlow
        exact hquiet finding rfl hhigh
      simp only [Scanner.trailLoop] at ht
      split at ht
      · cases ht
        exact ⟨rfl, hcurrent, fun hquiet => absurd hquiet (hloud rfl)⟩
      · obtain ⟨r, -, ht⟩ := returns_bind ht
        cases r with
        | some attribution =>
          cases ht
          exact ⟨rfl, hcurrent, fun hquiet => absurd hquiet (hloud rfl)⟩
        | none =>
          dsimp only at ht
          cases hexpand : sc.expand current ⟨queue, seen⟩ with
          | error err =>
            rw [hexpand] at ht
            cases ht
            refine ⟨rfl, hcurrent, ?_⟩
            rintro ⟨low, hlow, -⟩
            cases hlow
          | ok search =>
            rw [hexpand] at ht
            refine ih (h.expand hexpand) ?_ ht
            rw [List.length_append, List.length_singleton]
            omega

end Trail

/-- The search of `scanValues` ends, and what it visits does not depend on the order in which
values are found: each value once, at its distance from the inputs. -/
theorem scanValues_canonical (lib : ScanLib) (sc : Scanner) (identity : PushIdentity)
    (inputs : List GoString) (hcandidates : 0 ≤ sc.bounds.maxCandidates)
    (hdepth : 0 ≤ sc.bounds.maxDecodeDepth) :
    (sc.scanTrail lib identity inputs >>= fun t => pure t.result) =
        sc.scanValues lib identity inputs ∧
      ∀ t, Returns (sc.scanTrail lib identity inputs) t →
        t.finished = true ∧ Canonical sc.bounds inputs t.visited ∧
          (t.IsQuiet → Covers sc.bounds inputs t.visited) := by
  refine ⟨scanTrail_result lib sc identity inputs, fun t ht => ?_⟩
  unfold Scanner.scanTrail at ht
  cases hstart : Search.addAll sc.bounds 0 inputs ⟨[], []⟩ with
  | error err =>
    rw [hstart] at ht
    cases ht
    refine ⟨rfl, ⟨.nil, by simp, by simpa using hcandidates, .nil, by simp, by simp⟩, ?_⟩
    rintro ⟨low, hlow, -⟩
    cases hlow
  | ok search =>
    rw [hstart] at ht
    exact trailLoop_canonical hcandidates hdepth (Explores.start hstart) (by simp) ht

/-- A scanner with the bounds that are taken where none are configured. -/
def Sample.scanner : Scanner where
  fingerprintKey := Sample.fingerprintKey
  bounds := ⟨100, 300, 4096, 2, 2 ^ 20, 2 ^ 24⟩
  profile := lit "p"
  profileGeneration := 1
  canaryAttribution := {}
  repositories := [lit "o/r"]
  refs := [lit "refs/heads/main"]

def Sample.push : PushIdentity where
  deliveryID := lit "d1"
  repository := lit "o/r"
  ref := lit "refs/heads/main"
  before := List.replicate 40 48
  after := List.replicate 40 49
  headTime := none
  sourceTime := none
  receivedAt := 0
  streamSequence := 1

open Sample in
/-- The scan of a push whose message is a token. -/
theorem scanValues_canonical_token :
    (scanner.scanTrail lib push [token] >>= fun t => pure t.result) =
        scanner.scanValues lib push [token] ∧
      ∀ t, Returns (scanner.scanTrail lib push [token]) t →
        t.finished = true ∧ Canonical scanner.bounds [token] t.visited ∧
          (t.IsQuiet → Covers scanner.bounds [token] t.visited) :=
  scanValues_canonical lib scanner push _ (by decide) (by decide)

open Sample in
/-- An empty input is no step away from the inputs and is not visited. -/
theorem empty_input_unvisited :
    ∃ t, Returns (scanner.scanTrail lib push [[]]) t ∧ t.IsQuiet ∧
      Steps reversibleDecodings 0 [] [] ∧ ∀ x ∈ t.visited, x.value ≠ [] :=
  ⟨⟨[], true, .ok none⟩, .ret _, ⟨none, rfl, by simp⟩, .zero [], by simp⟩

end SignalPlane.Pushscan
