import Proposer.Ledger

set_option autoImplicit false

/-! # The prover gateway

The proposer talks to the prover service over HTTP (spec §4.3, §6): a `POST` to
`request_span_proof` or `request_agg_proof` whose answer carries a `proof_id`, and a
`GET status/<proof_id>` whose answer carries a status string and the proof bytes.
`RequestProofFromServer` and `GetProofStatus` turn what the exchange ends in into a result or an
error, and that decoding is what this module models: which outcomes are errors, with their
texts, and which fields of the answer reach the caller.

What the service sends back is the environment's choice (`HttpOutcome`): a failure of the
transport, or a response with any status code and any body. Neither function reads the status
code, and Go's `json.Unmarshal` fills a field the body lacks with its zero value, so an answer
without a `proof_id` is a success with the empty id (`proofResponseOf_object`). The
body is modelled as parsed JSON, or as the syntax error Go's parser reports; keys are matched to
struct fields as Go does, up to simple case folding. -/

namespace Proposer

/-! ## JSON bodies -/

/-- A JSON value. -/
inductive JsonValue where
  | null
  | bool (b : Bool)
  | number (n : Int)
  | string (s : String)
  | array (items : List JsonValue)
  | object (fields : List (String × JsonValue))
  deriving Repr

/-- A response body: JSON, or text Go's JSON parser rejects with `err`. -/
inductive JsonBody where
  | invalid (err : String)
  | json (v : JsonValue)
  deriving Repr

namespace JsonValue

/-- The word Go's `UnmarshalTypeError` uses for the JSON side. -/
def kind : JsonValue → String
  | .null => "null"
  | .bool _ => "bool"
  | .number _ => "number"
  | .string _ => "string"
  | .array _ => "array"
  | .object _ => "object"

end JsonValue

/-- Go's `UnmarshalTypeError` text for the struct field `field` of Go type `goType`. -/
def typeError (v : JsonValue) (field goType : String) : String :=
  "json: cannot unmarshal " ++ v.kind ++ " into Go struct field " ++ field ++ " of type " ++ goType

/-- Go's `foldName` on one rune, for the runes whose fold is ASCII: ASCII letters fold to upper
    case, the long s `ſ` to `S` and the Kelvin sign to `K`. Every other non-ASCII rune folds to a
    non-ASCII rune, which no fold of an ASCII tag contains, so it is kept as it is. -/
def foldRune (c : Char) : Char :=
  if c.toNat < 128 then c.toUpper
  else if c = '\u017F' then 'S'
  else if c = '\u212A' then 'K'
  else c

/-- Whether the JSON key `key` fills the struct field with the ASCII tag `tag`:
    `foldName(key) == foldName(tag)`, Go's simple case folding. -/
def keyMatches (key tag : String) : Bool := key.data.map foldRune == tag.data.map foldRune

/-- `json.Unmarshal` into a Go `string` field holding `cur`: `null` leaves it as it is. -/
def decodeString (field : String) (cur : String) : JsonValue → Except String String
  | .null => .ok cur
  | .string s => .ok s
  | v => .error (typeError v field "string")

/-- The value of one base64 digit of the standard alphabet. -/
def base64Digit (c : Char) : Option Nat :=
  if 'A' ≤ c ∧ c ≤ 'Z' then some (c.toNat - 'A'.toNat)
  else if 'a' ≤ c ∧ c ≤ 'z' then some (c.toNat - 'a'.toNat + 26)
  else if '0' ≤ c ∧ c ≤ '9' then some (c.toNat - '0'.toNat + 52)
  else if c = '+' then some 62
  else if c = '/' then some 63
  else none

/-- The bytes `decodeQuantum` writes for the digits `dbuf` of one quantum (two to four of them):
    the 24-bit value of the digits, missing ones zero, of which the first `len(dbuf) - 1` bytes. -/
def quantumBytes (dbuf : List Nat) : Bytes :=
  let val := (dbuf ++ List.replicate (4 - dbuf.length) 0).foldl (fun v d => v * 64 + d) 0
  ([val / 65536 % 256, val / 256 % 256, val % 256].take (dbuf.length - 1)).map UInt8.ofNat

/-- The end of a padded quantum: only newlines may follow, else the trailing garbage at `si` is
    an error. -/
def base64PadEnd (dbuf : List Nat) : List Char → Nat → Except Nat Bytes
  | [], _ => .ok (quantumBytes dbuf)
  | c :: cs, si => if c = '\n' ∨ c = '\r' then base64PadEnd dbuf cs (si + 1) else .error si

/-- A first `=` after two digits: newlines, then the second `=`. -/
def base64PadSecond (dbuf : List Nat) : List Char → Nat → Except Nat Bytes
  | [], si => .error si
  | c :: cs, si =>
    if c = '\n' ∨ c = '\r' then base64PadSecond dbuf cs (si + 1)
    else if c = '=' then base64PadEnd dbuf cs (si + 1)
    else .error (si - 1)

/-- `base64.StdEncoding.Decode`, the loop of `decodeQuantum`: `si` is the offset of the next
    character and `dbuf` the digits of the current quantum; newlines are skipped, and an error is
    the offset of Go's `CorruptInputError`. The offsets count characters, which are the bytes of
    the input up to the first non-ASCII character, where decoding stops. -/
def base64Decode : List Char → Nat → List Nat → Except Nat Bytes
  | [], si, dbuf => if dbuf = [] then .ok [] else .error (si - dbuf.length)
  | c :: cs, si, dbuf =>
    match base64Digit c with
    | some d =>
      if dbuf.length = 3 then (quantumBytes (dbuf ++ [d]) ++ ·) <$> base64Decode cs (si + 1) []
      else base64Decode cs (si + 1) (dbuf ++ [d])
    | none =>
      if c = '\n' ∨ c = '\r' then base64Decode cs (si + 1) dbuf
      else if c ≠ '=' ∨ dbuf.length < 2 then .error si
      else if dbuf.length = 2 then base64PadSecond dbuf cs (si + 1)
      else base64PadEnd dbuf cs (si + 1)

/-- One element of a JSON array decoded into a `[]byte`: a number in `0..255`. -/
def decodeByte (field : String) : JsonValue → Except String UInt8
  | .number n => if 0 ≤ n ∧ n < 256 then .ok (UInt8.ofNat n.toNat) else
      .error ("json: cannot unmarshal number " ++ toString n ++ " into Go struct field " ++
        field ++ " of type uint8")
  | v => .error (typeError v field "uint8")

/-- `json.Unmarshal` into a Go `[]byte` field: a base64 string, an array of bytes, or `null`
    (the nil slice). -/
def decodeBytes (field : String) : JsonValue → Except String Bytes
  | .null => .ok []
  | .string s =>
    match base64Decode s.toList 0 [] with
    | .ok bs => .ok bs
    | .error si => .error ("illegal base64 data at input byte " ++ toString si)
  | .array items => items.mapM (decodeByte field)
  | v => .error (typeError v field "[]uint8")

/-- `json.Unmarshal(body, &v)` for a struct: `decodeField` fills one key of an object, `null` is
    a no-op, and any other value is a type error. -/
def unmarshal {α : Type} (goType : String) (zero : α)
    (decodeField : α → String × JsonValue → Except String α) : JsonBody → Except String α
  | .invalid err => .error err
  | .json .null => .ok zero
  | .json (.object fields) => fields.foldlM decodeField zero
  | .json v => .error ("json: cannot unmarshal " ++ v.kind ++ " into Go value of type " ++ goType)

/-! ## Requests and answers -/

/-- `common.Hash`: 32 bytes. -/
structure Hash where
  bytes : List UInt8
  size_eq : bytes.length = 32

/-- One byte as two lower-case hex digits. -/
def byteHex (b : UInt8) : String :=
  String.mk [Nat.digitChar (b.toNat / 16), Nat.digitChar (b.toNat % 16)]

/-- `Hash.Hex()`: `0x` and 64 hex digits. -/
def Hash.hex (h : Hash) : String := "0x" ++ String.join (h.bytes.map byteHex)

theorem Hash.hex_ne_empty (h : Hash) : h.hex ≠ "" := by
  simp [Hash.hex, String.ext_iff]

/-- `SpanProofRequest`: the body of `request_span_proof`. -/
structure SpanProofRequest where
  start : UInt64
  «end» : UInt64
  deriving DecidableEq, Repr

/-- `AggProofRequest`: the body of `request_agg_proof`. -/
structure AggProofRequest where
  subproofs : List Bytes
  l1Head : String
  deriving DecidableEq, Repr

/-- The JSON body of a proof request (`json.Marshal` of these structs cannot fail). -/
inductive RequestBody where
  | span (r : SpanProofRequest)
  | agg (r : AggProofRequest)
  deriving DecidableEq, Repr

/-- One `POST` to the prover service: the path under `OPSuccinctServerUrl`, and the body. -/
structure ProverCall where
  urlPath : String
  body : RequestBody
  deriving DecidableEq, Repr

/-- What one HTTP exchange with the prover service ends in. -/
inductive HttpOutcome where
  /-- `http.NewRequest` rejected the URL. -/
  | badRequest (err : String)
  /-- `client.Do` failed with a `net.Error` whose `Timeout()` holds. -/
  | timeout (err : String)
  /-- `client.Do` failed otherwise. -/
  | sendFailed (err : String)
  /-- `io.ReadAll` of the body failed. -/
  | readFailed (err : String)
  /-- A response: its status code, and its body. -/
  | response (statusCode : Nat) (body : JsonBody)
  deriving Repr

/-- `ProofResponse`, the answer to a proof request. -/
structure ProofResponse where
  proofID : String
  deriving DecidableEq, Repr

/-- `json.Unmarshal` of one key into a `ProofResponse`. -/
def ProofResponse.decodeField (r : ProofResponse) : String × JsonValue → Except String ProofResponse
  | (k, v) =>
    if keyMatches k "proof_id" then
      (decodeString "ProofResponse.proof_id" r.proofID v).map fun proofID => { r with proofID }
    else .ok r

/-- `ProofStatus`, the answer to a status poll. -/
structure ProofStatus where
  status : String
  proof : Bytes
  deriving DecidableEq, Repr

/-- `json.Unmarshal` of one key into a `ProofStatus`. -/
def ProofStatus.decodeField (r : ProofStatus) : String × JsonValue → Except String ProofStatus
  | (k, v) =>
    if keyMatches k "status" then
      (decodeString "ProofStatus.status" r.status v).map fun status => { r with status }
    else if keyMatches k "proof" then
      (decodeBytes "ProofStatus.proof" v).map fun proof => { r with proof }
    else .ok r

/-- What `RequestProofFromServer` returns for the exchange `outcome`: the proof id of a successful
    exchange. The status code is not read, and the body only has to decode into a
    `ProofResponse`. -/
def proofResponseOf (outcome : HttpOutcome) : Except String String :=
  match outcome with
  | .badRequest err => .error ("failed to create request: " ++ err)
  | .timeout err => .error ("request timed out after 3 minutes: " ++ err)
  | .sendFailed err => .error ("failed to send request: " ++ err)
  | .readFailed err => .error ("error reading the response body: " ++ err)
  | .response _ body =>
    match unmarshal "proposer.ProofResponse" ⟨""⟩ ProofResponse.decodeField body with
    | .error err => .error ("error decoding JSON response: " ++ err)
    | .ok response => .ok response.proofID

/-- `GetProofStatus`: the status string and the proof bytes of a successful poll. -/
def getProofStatus (outcome : HttpOutcome) : Except String (String × Bytes) :=
  match outcome with
  | .badRequest err => .error ("failed to create request: " ++ err)
  | .timeout err => .error ("request timed out after 30 seconds: " ++ err)
  | .sendFailed err => .error ("failed to send request: " ++ err)
  | .readFailed err => .error ("error reading the response body: " ++ err)
  | .response _ body =>
    match unmarshal "proposer.ProofStatus" ⟨"", []⟩ ProofStatus.decodeField body with
    | .error err => .error ("error decoding JSON response: " ++ err)
    | .ok response => .ok (response.status, response.proof)

/-! ## Answers without the expected field -/

/-- Decoding an object none of whose keys names `proof` leaves the proof as it is. -/
theorem ProofStatus.foldlM_decodeField_proof (fields : List (String × JsonValue)) (r r' : ProofStatus)
    (h : ∀ kv ∈ fields, keyMatches kv.1 "proof" = false)
    (hr : fields.foldlM ProofStatus.decodeField r = .ok r') : r'.proof = r.proof := by
  induction fields generalizing r with
  | nil => simp only [List.foldlM_nil] at hr; cases hr; rfl
  | cons kv rest ih =>
    obtain ⟨k, v⟩ := kv
    have hk : keyMatches k "proof" = false := h (k, v) (List.mem_cons_self _ _)
    have hrest : ∀ kv ∈ rest, keyMatches kv.1 "proof" = false :=
      fun kv hkv => h kv (List.mem_cons_of_mem _ hkv)
    simp only [List.foldlM_cons, ProofStatus.decodeField, hk, Bool.false_eq_true, if_false] at hr
    split at hr
    · cases hs : decodeString "ProofStatus.status" r.status v with
      | error e => simp [hs, Except.map, bind, Except.bind] at hr
      | ok status =>
        simp only [hs, Except.map] at hr
        exact ih { r with status } hrest hr
    · exact ih r hrest hr

/-- A successful poll whose body is an object without a `proof` key carries no proof bytes. -/
theorem getProofStatus_object_proof (statusCode : Nat) (fields : List (String × JsonValue))
    (status : String) (proof : Bytes) (h : ∀ kv ∈ fields, keyMatches kv.1 "proof" = false)
    (hr : getProofStatus (.response statusCode (.json (.object fields))) = .ok (status, proof)) :
    proof = [] := by
  simp only [getProofStatus, unmarshal] at hr
  split at hr
  · cases hr
  · next r hd =>
    cases hr
    exact ProofStatus.foldlM_decodeField_proof fields _ r h hd

/-- A `PROOF_FULFILLED` status with no `proof` field is a successful poll whose proof is
    empty. -/
theorem getProofStatus_object_proof_fulfilled :
    (∀ kv ∈ [("status", JsonValue.string "PROOF_FULFILLED")], keyMatches kv.1 "proof" = false) ∧
    ∃ proof, getProofStatus (.response 200 (.json (.object [("status", .string "PROOF_FULFILLED")]))) =
      .ok ("PROOF_FULFILLED", proof) ∧ proof = [] :=
  ⟨by decide, [], rfl, getProofStatus_object_proof 200 [("status", .string "PROOF_FULFILLED")]
    "PROOF_FULFILLED" [] (by decide) rfl⟩

end Proposer
