/-
SignalPlane.Pushscan.Scan — what a scan does without the database.

The patterns are those of `scanner.go`, as functions for `GoString.findAll` or
as tests. `reversibleDecodings` lists what a value may be an encoding of,
`materialValues` is what `scanMaterial` checks and collects before it searches,
and `Search` is the queue of `scanValues` with the values it has seen.
-/
import SignalPlane.Lib.Encoding
import SignalPlane.Lib.FindAll
import SignalPlane.Pushscan.Model

namespace SignalPlane.Pushscan

open Dispatcher (GoError newError require)
open GoString (Base64 classRun findAll hexDecode isAlnum isDigit isHexFold isLower
  isUpper pathUnescape)

/-! ## Patterns -/

/-- A letter, a digit, or one of `. _ ~ + / -`. -/
def isTokenByte (b : UInt8) : Bool :=
  isAlnum b || b = 46 || b = 95 || b = 126 || b = 43 || b = 47 || b = 45

/-- `tokenRun`. -/
def tokenRun : GoString → Nat := classRun isTokenByte 16 1000

/-- `base64Run`: a run of either alphabet, and up to two padding characters. -/
def base64Run (s : GoString) : Nat :=
  let n := (s.takeWhile Base64.isAlphabet).length
  if 16 ≤ n then n + min 2 ((s.drop n).takeWhile (· = 61)).length else 0

/-- `hexRun`: at least twelve pairs of digits. -/
def hexRun (s : GoString) : Nat :=
  let n := (s.takeWhile isHexFold).length
  if 24 ≤ n then n - n % 2 else 0

/-- The length of the run of that class at the start when case is folded, in characters: folding
adds the long s and the Kelvin sign. -/
def foldedTokenRun : GoString → Nat
  | 0xC5 :: 0xBF :: rest => foldedTokenRun rest + 1
  | 0xE2 :: 0x84 :: 0xAA :: rest => foldedTokenRun rest + 1
  | b :: rest => if isTokenByte b then foldedTokenRun rest + 1 else 0
  | [] => 0

/-- What is left of the text behind one byte of each class. -/
def stripEach : List (UInt8 → Bool) → GoString → Option GoString
  | [], s => some s
  | _ :: _, [] => none
  | p :: ps, b :: rest => if p b then stripEach ps rest else none

/-- A literal in either case. -/
def folded (text : String) : List (UInt8 → Bool) :=
  (lit text).map fun c b => decide (b = c) || (isUpper c && decide (b = c + 32))

def isJoint (b : UInt8) : Bool := b = 95 || b = 45

/-- `canaryPattern` at the start of the text. -/
def canaryAt (s : GoString) : Bool :=
  (stripEach (folded "PR10" ++ [isJoint] ++ folded "CREDENTIAL" ++ [isJoint] ++ folded "CANARY" ++
    [fun b => b = 58 || b = 61 || isJoint b]) s).any fun rest => 6 ≤ foldedTokenRun rest

/-- `canaryPattern.MatchString`. -/
def matchesCanary (s : GoString) : Bool := s.tails.any canaryAt

def isWordByte (b : UInt8) : Bool := isAlnum b || b = 95

/-- `\b` between two bytes, or at an end of the text. -/
def wordBoundary (before after : Option UInt8) : Bool :=
  before.any isWordByte != after.any isWordByte

/-- `[A-Za-z0-9_-]`. -/
def isJwtByte (b : UInt8) : Bool := isAlnum b || b = 95 || b = 45

/-- What is left behind `[A-Za-z0-9_-]{8,}\.`. -/
def jwtPart (s : GoString) : Option GoString :=
  match s.dropWhile isJwtByte with
  | 46 :: rest => if 8 ≤ (s.takeWhile isJwtByte).length then some rest else none
  | _ => none

/-- `[A-Za-z0-9_-]{8,}\b` at the start of the text: some end of the run is a boundary. -/
def jwtEnd (s : GoString) : Bool :=
  (List.range ((s.takeWhile isJwtByte).length + 1)).any fun n =>
    decide (8 ≤ n) && wordBoundary s[n - 1]? s[n]?

/-- `jwtPattern` behind the first boundary. -/
def jwtAt (s : GoString) : Bool :=
  (lit "eyJ").isPrefixOf s && (((jwtPart (s.drop 3)).bind jwtPart).any jwtEnd)

/-- `jwtPattern.MatchString`, behind the byte `before`. -/
def matchesJwtFrom (before : Option UInt8) : GoString → Bool
  | [] => false
  | b :: rest => (wordBoundary before (some b) && jwtAt (b :: rest)) || matchesJwtFrom (some b) rest

def matchesJwt (s : GoString) : Bool := matchesJwtFrom none s

/-- `genericEntropyShape`. -/
def genericEntropyShape (value : GoString) : Bool :=
  (findAll tokenRun 0 value).any fun candidate =>
    decide (32 ≤ candidate.length) && candidate.any isDigit && candidate.any isUpper &&
      candidate.any isLower

/-! ## Decodings -/

/-- The encodings that are tried. -/
def encodings : List Base64 := [.std, .rawStd, .urlSafe, .rawURL]

/-- `hasFullReversibleDecoding`. -/
def hasFullReversibleDecoding (value : GoString) : Bool :=
  (pathUnescape value).any (fun decoded => decoded ≠ value) ||
    (decide (24 ≤ value.length) && decide (value.length % 2 = 0) && (hexDecode value).isSome) ||
    encodings.any fun e => decide (16 ≤ value.length) && (e.decode value).isSome

/-- `match[start : len(match)-cut]` for every `start` and `cut` below `n`. -/
def slices (n : Nat) (s : GoString) : List GoString :=
  (List.range n).flatMap fun start => (List.range n).map fun cut =>
    (s.drop start).take (s.length - start - cut)

/-- `reversibleDecodings`. -/
def reversibleDecodings (value : GoString) : List GoString :=
  ((pathUnescape value).filter fun decoded => decoded ≠ value).toList ++
    ((findAll hexRun 0 value).flatMap fun found =>
      (slices 2 found).filterMap fun s =>
        if s.length < 24 ∨ s.length % 2 ≠ 0 then none else hexDecode s) ++
    (findAll base64Run 0 value).flatMap fun found =>
      (slices 4 found).flatMap fun s =>
        if s.length < 16 then [] else encodings.filterMap fun e => e.decode s

/-! ## Material -/

/-- The first loop of `scanMaterial`. -/
def readCommits (bounds : Bounds) : List Commit → Int → Except GoError (List GoString × Int)
  | [], total => .ok ([], total)
  | commit :: rest, total => do
    require (matchesSHA commit.sha = true) (newError "invalid commit identity")
    require (total + commit.message.length ≤ bounds.maxTotalBytes)
      (newError "total bytes exceeded")
    let (values, total) ← readCommits bounds rest (total + commit.message.length)
    return (commit.message :: values, total)

/-- What `scanMaterial` asks of a file before it decodes it. -/
def File.isBounded (bounds : Bounds) (file : File) : Prop :=
  ¬ (file.path = [] ∨ file.size < 0 ∨ bounds.maxBlobBytes < file.size ∨
    matchesSHA file.commitSHA = false ∨ matchesSHA file.blobSHA = false ∨
    (file.side ≠ lit "before" ∧ file.side ≠ lit "after"))

instance (bounds : Bounds) (file : File) : Decidable (file.isBounded bounds) :=
  inferInstanceAs (Decidable (¬ _))

/-- The content of a file, which has to have the size that it states. -/
def File.content (file : File) : Except GoError GoString :=
  match Base64.std.decode file.contentBase64 with
  | none => .error (newError "invalid bounded blob")
  | some content =>
    if (content.length : Int) ≠ file.size then .error (newError "invalid bounded blob")
    else .ok content

/-- The second loop of `scanMaterial`. -/
def readFiles (bounds : Bounds) : List File → Int → Except GoError (List GoString × Int)
  | [], total => .ok ([], total)
  | file :: rest, total => do
    require (file.isBounded bounds) (newError "file bounds exceeded")
    let content ← file.content
    require (total + content.length ≤ bounds.maxTotalBytes) (newError "total bytes exceeded")
    let (values, total) ← readFiles bounds rest (total + content.length)
    return (file.path :: content :: values, total)

/-- `scanMaterial` up to the search. -/
def materialValues (bounds : Bounds) (material : Material) : Except GoError (List GoString) := do
  require (¬ (bounds.maxCommits < material.commits.length ∨
      bounds.maxPaths < material.files.length ∨
      bounds.maxCommits < material.bounds.commitCount ∨
      bounds.maxPaths < material.bounds.pathCount ∨
      bounds.maxTotalBytes < material.bounds.totalBytes))
    (newError "material bounds exceeded")
  let (messages, total) ← readCommits bounds material.commits 0
  let (contents, total) ← readFiles bounds material.files total
  require (material.bounds.commitCount = material.commits.length ∧
      material.bounds.pathCount = material.files.length ∧ material.bounds.totalBytes = total)
    (newError "material bound accounting mismatch")
  return messages ++ contents

/-! ## The search -/

/-- `queuedValue`. -/
structure QueuedValue where
  value : GoString
  depth : Nat
  deriving DecidableEq, Repr

/-- The queue of a search, and the values it has seen. -/
structure Search where
  queue : List QueuedValue
  seen : List GoString
  deriving DecidableEq, Repr

/-- `add`. -/
def Search.add (bounds : Bounds) (depth : Nat) (value : GoString) (search : Search) :
    Except GoError Search :=
  if value = [] then .ok search
  else if value ∈ search.seen then .ok search
  else if bounds.maxCandidates ≤ search.seen.length then
    .error (newError "candidate bound exceeded")
  else .ok ⟨search.queue ++ [⟨value, depth⟩], search.seen ++ [value]⟩

def Search.addAll (bounds : Bounds) (depth : Nat) : List GoString → Search → Except GoError Search
  | [], search => .ok search
  | value :: rest, search => do
    let search ← search.add bounds depth value
    search.addAll bounds depth rest

end SignalPlane.Pushscan
