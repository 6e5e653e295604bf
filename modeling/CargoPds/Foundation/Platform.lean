import CargoPds.Evaluation.Types
import CargoPds.Policy.Types

/-!
# The standard library

What the code calls in `encoding/json`, `crypto/sha256`, `math/big` and `time`
is a parameter of the model.  A field returns `none` where the call returns an
error.  Nothing is assumed of the fields; a theorem that needs a property of one
of them (that decoding inverts encoding, say) states it.
-/

namespace CargoPds

/-- A JSON value as `Decoder.UseNumber` delivers it.  The text of a number is
kept. -/
inductive Json where
  | null
  | bool (value : Bool)
  | number (text : String)
  | string (value : String)
  | array (items : List Json)
  | object (members : List (String × Json))

/-- The member of an object with the given name. -/
def Json.member? (members : List (String × Json)) (name : String) : Option Json :=
  members.lookup name

structure Platform where
  /-- `sha256.Sum256`. -/
  sha256 : Bytes → Digest
  /-- Decode exactly one JSON value up to the end of the input. -/
  decodeJSON : Bytes → Option Json
  /-- `json.Marshal` of a decoded value. -/
  marshalJSON : Json → Option Bytes
  /-- `json.Unmarshal` into a `json.Number`. -/
  unmarshalNumber : Bytes → Option String
  /-- `Rat.SetString`. -/
  setRat : String → Option ℚ
  /-- `time.ParseDuration`, in nanoseconds. -/
  parseDuration : String → Option Int
  /-- Decode a policy document without unknown fields, up to the end of the input. -/
  decodePolicyDocument : Bytes → Option Policy.PolicyDocumentV1
  /-- `json.Marshal` of the hashed part of a policy version. -/
  marshalPolicyEnvelope : Policy.Envelope → Option Bytes
  /-- `json.Marshal` of an evidence snapshot. -/
  marshalEvidence : Evidence.Snapshot → Option Bytes
  /-- `json.Marshal` of a domain event. -/
  marshalEvent : Evaluation.DomainEvent → Option Bytes

namespace Platform

/-- A library of which every call fails, to which an example adds what it uses. -/
def silent : Platform where
  sha256 _ := Digest.zero
  decodeJSON _ := none
  marshalJSON _ := none
  unmarshalNumber _ := none
  setRat _ := none
  parseDuration _ := none
  decodePolicyDocument _ := none
  marshalPolicyEnvelope _ := none
  marshalEvidence _ := none
  marshalEvent _ := none

/-- `sha256:` followed by the hexadecimal digest. -/
def digest (lib : Platform) (payload : Bytes) : String :=
  (lib.sha256 payload).text

/-- `canonicalJSON`: decode one value and encode it again. -/
def canonicalJSON (lib : Platform) (payload : Bytes) : Option Bytes :=
  (lib.decodeJSON payload).bind lib.marshalJSON

end Platform

end CargoPds
