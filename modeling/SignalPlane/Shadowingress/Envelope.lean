/-
SignalPlane.Shadowingress.Envelope — the message a local process sends to the
shadow ingress.

`decodeEnvelope` reads one JSON object with known fields and then asks the
decoder for a second value. It refuses the input when there is one. The end of
the input and a syntax error are both errors of the decoder, and the code does
not tell them apart, so input that goes on with something that is no JSON passes
(`stray_bracket_accepted`). `envelope_whole_iff` says which inputs are read to
their end: those where the object is followed by space, or by a value that the
decoder stores.
-/
import SignalPlane.Dispatcher.Model
import SignalPlane.Lib.Json

namespace SignalPlane.Shadowingress

open Dispatcher (GoError newError require require_bind_eq_ok require_eq_ok bind_eq_ok
  pure_eq_ok)
open Json (Blank Next)

/-- `Envelope`. -/
structure Envelope where
  signalID : GoString := []
  sourceDeliveryID : GoString := []
  transportStream : GoString := []
  transportSeq : Nat := 0
  source : GoString := []
  nameSpace : GoString := []
  objectKind : GoString := []
  objectID : GoString := []
  eventKind : GoString := []
  action : GoString := []
  actorClass : GoString := []
  sourceRevision : GoString := []
  payloadDigest : GoString := []
  evidenceRef : GoString := []
  deriving DecidableEq

/-- `MaxEnvelopeBytes`. -/
def maxEnvelopeBytes : Nat := 65536

def envelopeFields (lib : JsonLib) : List (Field Envelope) :=
  [lib.stringField "signal_id" fun v e => { e with signalID := v },
    lib.stringField "source_delivery_id" fun v e => { e with sourceDeliveryID := v },
    lib.stringField "transport_stream" fun v e => { e with transportStream := v },
    lib.uint64Field "transport_sequence" fun v e => { e with transportSeq := v },
    lib.stringField "source" fun v e => { e with source := v },
    lib.stringField "namespace" fun v e => { e with nameSpace := v },
    lib.stringField "object_kind" fun v e => { e with objectKind := v },
    lib.stringField "object_id" fun v e => { e with objectID := v },
    lib.stringField "event_kind" fun v e => { e with eventKind := v },
    lib.stringField "action" fun v e => { e with action := v },
    lib.stringField "actor_class" fun v e => { e with actorClass := v },
    lib.stringField "source_revision" fun v e => { e with sourceRevision := v },
    lib.stringField "payload_digest" fun v e => { e with payloadDigest := v },
    lib.stringField "evidence_ref" fun v e => { e with evidenceRef := v }]

def checkSize (name : String) (value : GoString) : Except GoError Unit :=
  require (value.length ≤ 512) (newError ("shadow ingress envelope " ++ name ++ " is oversized"))

def checkRequired (name : String) (value : GoString) : Except GoError Unit := do
  require (value ≠ []) (newError ("shadow ingress envelope missing " ++ name))
  checkSize name value

/-- `Envelope.Validate`. Go goes through its maps of fields in any order, and names one of the
bad ones. -/
def Envelope.validate (e : Envelope) : Except GoError Unit := do
  checkRequired "source_delivery_id" e.sourceDeliveryID
  checkRequired "transport_stream" e.transportStream
  checkRequired "source" e.source
  checkRequired "namespace" e.nameSpace
  checkRequired "object_kind" e.objectKind
  checkRequired "object_id" e.objectID
  checkRequired "event_kind" e.eventKind
  checkRequired "source_revision" e.sourceRevision
  checkRequired "payload_digest" e.payloadDigest
  checkRequired "evidence_ref" e.evidenceRef
  checkSize "signal_id" e.signalID
  checkSize "action" e.action
  checkSize "actor_class" e.actorClass
  require (e.transportSeq ≠ 0)
    (newError "shadow ingress envelope requires a positive transport sequence")

/-- `fmt.Errorf("decode shadow ingress envelope: %w", err)`. -/
def decodeError (err : GoString) : GoError := ⟨lit "decode shadow ingress envelope: " ++ err, none⟩

/-- `Decode` into an `any` returns no error. -/
def decodesAny (lib : JsonLib) (rest : GoString) : Bool :=
  match lib.next rest with
  | .value v _ => lib.fitsAny v
  | _ => false

/-- `DecodeEnvelope`. -/
def decodeEnvelope (lib : JsonLib) (raw : GoString) : Except GoError Envelope := do
  require (raw.length ≤ maxEnvelopeBytes) (newError "shadow ingress envelope exceeds bound")
  match lib.next raw with
  | .eof => .error (decodeError (lit "EOF"))
  | .malformed err => .error (decodeError err)
  | .value v rest =>
    let envelope ← (lib.decodeStruct (envelopeFields lib) v {}).mapError decodeError
    require (decodesAny lib rest = false)
      (newError "shadow ingress envelope has trailing content")
    envelope.validate
    return envelope

/-! ## What is accepted -/

variable {lib : JsonLib} {raw : GoString} {envelope : Envelope}

theorem mapError_eq_ok {α : Type} {x : Except GoString α} {a : α} :
    x.mapError decodeError = .ok a ↔ x = .ok a := by
  cases x <;> simp [Except.mapError]

theorem decodeEnvelope_eq_ok : decodeEnvelope lib raw = .ok envelope ↔
    raw.length ≤ maxEnvelopeBytes ∧ ∃ v rest, lib.next raw = .value v rest ∧
      lib.decodeStruct (envelopeFields lib) v {} = .ok envelope ∧
      decodesAny lib rest = false ∧ envelope.validate = .ok () := by
  unfold decodeEnvelope
  rw [require_bind_eq_ok]
  refine and_congr_right fun _ => ?_
  cases lib.next raw with
  | eof => simp
  | malformed err => simp
  | value v rest =>
    simp only [bind_eq_ok, mapError_eq_ok, require_eq_ok, pure_eq_ok, Next.value.injEq]
    constructor
    · rintro ⟨e, hdecode, -, hrest, _, hvalid, rfl⟩
      exact ⟨v, rest, ⟨rfl, rfl⟩, hdecode, hrest, hvalid⟩
    · rintro ⟨_, _, ⟨rfl, rfl⟩, hdecode, hrest, hvalid⟩
      exact ⟨envelope, hdecode, (), hrest, (), hvalid, rfl⟩

/-- An object that is a valid envelope. -/
def Accepts (lib : JsonLib) (members : List (GoString × Json)) (envelope : Envelope) : Prop :=
  lib.decodeStruct (envelopeFields lib) (.object members) {} = .ok envelope ∧
    envelope.validate = .ok ()

/-- A valid envelope is read from an object: `null` leaves every field empty. -/
theorem object_of_decodeStruct {v : Json}
    (h : lib.decodeStruct (envelopeFields lib) v {} = .ok envelope)
    (hvalid : envelope.validate = .ok ()) : ∃ members, v = .object members := by
  cases v with
  | object members => exact ⟨members, rfl⟩
  | null =>
    cases h
    cases hvalid
  | _ => cases h

/-- The text of an object with only space in front of it, and what comes behind it. -/
structure Reads (lib : JsonLib) (raw : GoString) (members : List (GoString × Json))
    (after : GoString) : Prop where
  intro ::
  split : ∃ before text, raw = before ++ text ++ after ∧ Blank before ∧
    lib.parse text = some (.object members)

theorem Reads.next_eq {members : List (GoString × Json)} {after : GoString}
    (h : Reads lib raw members after) : lib.next raw = .value (.object members) after := by
  obtain ⟨before, text, rfl, hbefore, htext⟩ := h.split
  exact lib.next_object hbefore htext

/-- `raw` is one JSON object whose members are known fields, with space around it, and when
anything else follows an object there is an error. -/
structure Whole (lib : JsonLib) (raw : GoString) : Prop where
  object : ∀ envelope, decodeEnvelope lib raw = .ok envelope → ∃ members after,
    Reads lib raw members after ∧ Blank after ∧
      ∀ m ∈ members, (lib.field? (envelopeFields lib) m.1).isSome = true
  trailing : ∀ members after, Reads lib raw members after → ¬ Blank after →
    ∀ envelope, decodeEnvelope lib raw ≠ .ok envelope

/-- An input is read to its end unless a valid envelope is followed by something that is neither
space nor a value. -/
theorem envelope_whole_iff (lib : JsonLib) (raw : GoString) : Whole lib raw ↔
    (raw.length ≤ maxEnvelopeBytes → ∀ members after envelope, Reads lib raw members after →
      Accepts lib members envelope → Blank after ∨ decodesAny lib after = true) := by
  constructor
  · intro h hlength members after envelope hreads ⟨hdecode, hvalid⟩
    by_contra! hstray
    refine h.trailing members after hreads hstray.1 envelope ?_
    exact decodeEnvelope_eq_ok.mpr ⟨hlength, _, _, hreads.next_eq, hdecode,
      Bool.eq_false_iff.mpr hstray.2, hvalid⟩
  · intro h
    -- What is accepted has been read from an object, and nothing but space follows it.
    have hobject : ∀ envelope, decodeEnvelope lib raw = .ok envelope → ∃ members after,
        Reads lib raw members after ∧ Blank after ∧
          ∀ m ∈ members, (lib.field? (envelopeFields lib) m.1).isSome = true := by
      intro envelope hok
      obtain ⟨hlength, v, rest, hnext, hdecode, hrest, hvalid⟩ := decodeEnvelope_eq_ok.mp hok
      obtain ⟨members, rfl⟩ := object_of_decodeStruct hdecode hvalid
      have hreads : Reads lib raw members rest := ⟨lib.next_value hnext⟩
      refine ⟨members, rest, hreads, ?_, JsonLib.field?_of_foldlM hdecode⟩
      refine (h hlength members rest envelope hreads ⟨hdecode, hvalid⟩).resolve_right ?_
      exact Bool.eq_false_iff.mp hrest
    refine ⟨hobject, fun members after hreads hafter envelope hok => ?_⟩
    obtain ⟨members', after', hreads', hblank, -⟩ := hobject envelope hok
    have hsame := hreads.next_eq.symm.trans hreads'.next_eq
    cases hsame
    exact hafter hblank

namespace Sample

/-- An envelope with the fields that are required. -/
def decoded : Envelope where
  sourceDeliveryID := lit "d"
  transportStream := lit "s"
  transportSeq := 1
  source := lit "github"
  nameSpace := lit "n"
  objectKind := lit "pull_request"
  objectID := lit "1"
  eventKind := lit "pull_request"
  sourceRevision := lit "r"
  payloadDigest := lit "sha256:p"
  evidenceRef := lit "e"

def members : List (GoString × Json) :=
  [(lit "source_delivery_id", .string (lit "d")), (lit "transport_stream", .string (lit "s")),
    (lit "transport_sequence", .number (lit "1")), (lit "source", .string (lit "github")),
    (lit "namespace", .string (lit "n")), (lit "object_kind", .string (lit "pull_request")),
    (lit "object_id", .string (lit "1")), (lit "event_kind", .string (lit "pull_request")),
    (lit "source_revision", .string (lit "r")), (lit "payload_digest", .string (lit "sha256:p")),
    (lit "evidence_ref", .string (lit "e"))]

def text : GoString :=
  lit "\x7b\"source_delivery_id\":\"d\",\"transport_stream\":\"s\",\"transport_sequence\":1," ++
    lit "\"source\":\"github\",\"namespace\":\"n\",\"object_kind\":\"pull_request\"," ++
    lit "\"object_id\":\"1\",\"event_kind\":\"pull_request\",\"source_revision\":\"r\"," ++
    lit "\"payload_digest\":\"sha256:p\",\"evidence_ref\":\"e\"\x7d"

def reader : JsonLib := .single text members (by decide +kernel) (by decide +kernel)

end Sample

open Sample in
/-- A bracket behind an envelope is no JSON and is not noticed. -/
theorem stray_bracket_accepted : ¬ Whole reader (text ++ lit "\x7d") := by
  intro h
  have hreads : Reads reader (text ++ lit "\x7d") members (lit "\x7d") :=
    ⟨[], text, rfl, rfl, JsonLib.parse_single ..⟩
  refine h.trailing _ _ hreads (by decide +kernel) decoded ?_
  exact decodeEnvelope_eq_ok.mpr ⟨by decide +kernel, _, _, hreads.next_eq, rfl, by decide +kernel,
    by decide +kernel⟩

end SignalPlane.Shadowingress
