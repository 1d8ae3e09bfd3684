/-
SignalPlane.Lib.Json — JSON values and the decoder of `encoding/json`.

A `Json` is what a JSON text stands for. How texts are read is a parameter,
`JsonLib`, whose laws are what the package documents: a `Decoder` skips space and
reads one value, if there is one. A value that starts with a bracket ends with
its own bracket, so what follows an object does not matter to how it is read
(`next_object`).

From values to structs the reading is written out. A struct is described by its
`Field`s; `decodeStruct` is `Decode` with `DisallowUnknownFields`. The decoder
goes on after a bad member and reports the first one, which is what stopping
there gives.
-/
import SignalPlane.Lib.GoString

namespace SignalPlane

/-- A JSON value: a number is its literal, a string is what its literal stands for. -/
inductive Json where
  | null
  | bool (value : Bool)
  | number (literal : GoString)
  | string (value : GoString)
  | array (items : List Json)
  | object (members : List (GoString × Json))

namespace Json

/-- The bytes that may stand between tokens. -/
def isSpace (b : UInt8) : Bool := b = 32 || b = 9 || b = 10 || b = 13

/-- Nothing but space. -/
def Blank (s : GoString) : Prop := s.all isSpace = true

instance : DecidablePred Blank := fun s => inferInstanceAs (Decidable (s.all isSpace = true))

/-- What a decoder finds when it reads on. -/
inductive Next where
  | eof
  | malformed (err : GoString)
  | value (v : Json) (rest : GoString)

end Json

open Json

/-- `encoding/json`. -/
structure JsonLib where
  /-- The value of a JSON text with no space around it. -/
  parse : GoString → Option Json
  /-- What `Decoder.Decode` reads from the input that is left. -/
  next : GoString → Next
  /-- `Decode` stores a value in an `any`: its numbers are in the range of `float64`. -/
  fitsAny : Json → Bool
  /-- Names are compared up to case when no field has the name itself. -/
  foldName : GoString → GoString
  /-- The error for a member that is no field. -/
  unknownField : GoString → GoString
  /-- The error for a value that a Go type does not take. -/
  mismatch : Json → String → GoString
  next_value : ∀ {s v rest}, next s = .value v rest →
    ∃ before text, s = before ++ text ++ rest ∧ Blank before ∧ parse text = some v
  next_object : ∀ {before text rest members}, Blank before → parse text = some (.object members) →
    next (before ++ text ++ rest) = .value (.object members) rest

/-! ## Structs -/

/-- A field of a struct: its name in a text, and how a value is stored in it. -/
structure Field (σ : Type) where
  name : GoString
  store : Json → σ → Except GoString σ

variable {σ : Type} {fields : List (Field σ)}

namespace JsonLib

variable (lib : JsonLib)

/-- The field a member is stored in. -/
def field? (fields : List (Field σ)) (key : GoString) : Option (Field σ) :=
  (fields.find? fun f => f.name = key) <|>
    fields.find? fun f => lib.foldName f.name = lib.foldName key

/-- One member of an object. -/
def storeMember (fields : List (Field σ)) (s : σ) (m : GoString × Json) : Except GoString σ :=
  match lib.field? fields m.1 with
  | none => .error (lib.unknownField m.1)
  | some f => f.store m.2 s

/-- `Decode` into a struct, with `DisallowUnknownFields`. -/
def decodeStruct (fields : List (Field σ)) (v : Json) (s : σ) : Except GoString σ :=
  match v with
  | .null => .ok s
  | .object members => members.foldlM (lib.storeMember fields) s
  | v => .error (lib.mismatch v "struct")

/-- A field of type `string`. -/
def stringField (name : String) (set : GoString → σ → σ) : Field σ where
  name := lit name
  store
    | .null, s => .ok s
    | .string value, s => .ok (set value s)
    | v, _ => .error (lib.mismatch v "string")

/-- `strconv.ParseUint(literal, 10, 64)`. -/
def parseUint (literal : GoString) : Option Nat :=
  let n := literal.foldl (fun n b => n * 10 + (b.toNat - 48)) 0
  if literal ≠ [] ∧ literal.all (fun b => 48 ≤ b && b ≤ 57) = true ∧ n < 2 ^ 64 then some n
  else none

/-- A field of type `uint64`. -/
def uint64Field (name : String) (set : Nat → σ → σ) : Field σ where
  name := lit name
  store
    | .null, s => .ok s
    | .number literal, s => match parseUint literal with
      | some n => .ok (set n s)
      | none => .error (lib.mismatch (.number literal) "uint64")
    | v, _ => .error (lib.mismatch v "uint64")

variable {lib}

theorem field?_of_foldlM {members : List (GoString × Json)} {s s' : σ}
    (h : members.foldlM (lib.storeMember fields) s = .ok s') :
    ∀ m ∈ members, (lib.field? fields m.1).isSome = true := by
  induction members generalizing s with
  | nil => exact fun m hm => absurd hm List.not_mem_nil
  | cons first members ih =>
    rw [List.foldlM_cons] at h
    cases hstore : lib.storeMember fields s first with
    | error err =>
      rw [hstore] at h
      cases h
    | ok next =>
      rw [hstore] at h
      refine List.forall_mem_cons.mpr ⟨?_, ih h⟩
      unfold storeMember at hstore
      cases hfield : lib.field? fields first.1 with
      | none =>
        rw [hfield] at hstore
        cases hstore
      | some f => rfl

/-- A decoder that knows one object. -/
def single (text : GoString) (members : List (GoString × Json))
    (htext : ∀ b ∈ text.head?, isSpace b = false) (hne : text ≠ []) : JsonLib where
  parse s := if s = text then some (.object members) else none
  next s :=
    let s := s.dropWhile isSpace
    if s = [] then .eof
    else if text.isPrefixOf s then .value (.object members) (s.drop text.length)
    else .malformed (lit "invalid character")
  fitsAny _ := true
  foldName := id
  unknownField key := lit "json: unknown field \"" ++ key ++ lit "\""
  mismatch _ goType := lit ("json: cannot unmarshal value of type " ++ goType)
  next_value {s v rest} h := by
    dsimp only at h
    split at h
    · cases h
    split at h
    · next hprefix =>
      obtain ⟨t, ht⟩ := List.isPrefixOf_iff_prefix.mp hprefix
      cases h
      refine ⟨s.takeWhile isSpace, text, ?_, ?_, if_pos rfl⟩
      · rw [← ht, List.drop_left, List.append_assoc, ht, List.takeWhile_append_dropWhile]
      · exact List.all_eq_true.mpr fun b hb => List.mem_takeWhile_imp hb
    · cases h
  next_object {before s rest ms} hbefore hs := by
    dsimp only at hs ⊢
    split at hs
    · next heq =>
      subst heq
      cases hs
      have hdrop : (before ++ s ++ rest).dropWhile isSpace = s ++ rest := by
        rw [List.append_assoc, List.dropWhile_append_of_pos (List.all_eq_true.mp hbefore)]
        cases s with
        | nil => exact absurd rfl hne
        | cons b s => exact List.dropWhile_cons_of_neg (by simp [htext b rfl])
      rw [hdrop, if_neg (by simp [hne]), if_pos (List.isPrefixOf_iff_prefix.mpr ⟨rest, rfl⟩),
        List.drop_left]
    · cases hs

theorem parse_single (text : GoString) (members : List (GoString × Json))
    (htext : ∀ b ∈ text.head?, isSpace b = false) (hne : text ≠ []) :
    (single text members htext hne).parse text = some (.object members) :=
  if_pos rfl

end JsonLib

end SignalPlane
