import Zallet.Common.SortedMap
import Zallet.Common.Text
import Zallet.Rpc.Amounts

/-!
# Bridging of JSON-RPC versions

`request_to_json_rpc_2` and `response_from_json_rpc_2` of
`json_rpc/server/http_request_compatibility.rs`, lines 122–207 and 278–431: a
body is read as a request or a response of any version and written again as the
other side expects it. A body that cannot be read so is passed on as it is.

A text is taken as the tree of its JSON value, with the members of an object in
the order of the text; `JsonValue.held` is what a `serde_json::Value` keeps of
it. Every optional field is an `Option`, for which `null` and an absent member
are the same, and which is not written when it is `None`.

* `requestToJsonRpc2_faithful_iff`: a rewritten request is faithful exactly if
  it is an object whose `params` and `id` are not `null`.
* `responseFromJsonRpc2_faithful_iff`: a rewritten response is faithful, except for a
  result `null` that goes to a client of no known version.
-/

namespace Zallet.Rpc

open Zallet.Common

/-! ## Values -/

mutual

/-- What `serde_json::Value` keeps of a JSON text: the members of an object are
    ordered by their key, and the last one with a key counts. -/
def JsonValue.held : JsonValue → JsonValue
  | .Array values => .Array (heldValues values)
  | .Object fields => .Object (heldFields fields)
  | .Null => .Null
  | .Bool b => .Bool b
  | .Number n => .Number n
  | .String s => .String s

def heldValues : List JsonValue → List JsonValue
  | [] => []
  | value :: rest => value.held :: heldValues rest

def heldFields : List (List Char × JsonValue) → List (List Char × JsonValue)
  | [] => []
  | field :: rest =>
    if field.1 ∈ rest.map Prod.fst then heldFields rest
    else SortedMap.insertEntry field.1 field.2.held (heldFields rest)

end

theorem sorted_heldFields (fields : List (List Char × JsonValue)) :
    (heldFields fields).Pairwise fun a b => a.1 < b.1 := by
  induction fields with
  | nil => exact List.Pairwise.nil
  | cons field rest ih =>
    rw [heldFields]
    split
    · exact ih
    · exact SortedMap.sorted_insertEntry ih

/-- Members in the order of their keys are kept as they are. -/
theorem heldFields_of_sorted {fields : List (List Char × JsonValue)}
    (hs : fields.Pairwise fun a b => a.1 < b.1) (hv : ∀ field ∈ fields, field.2.held = field.2) :
    heldFields fields = fields := by
  induction fields with
  | nil => rfl
  | cons field rest ih =>
    obtain ⟨hlt, hrest⟩ := List.pairwise_cons.mp hs
    obtain ⟨hfield, hvrest⟩ := List.forall_mem_cons.mp hv
    have hnew : field.1 ∉ rest.map Prod.fst := by
      intro hmem
      obtain ⟨e, he, hkey⟩ := List.mem_map.mp hmem
      exact (hlt e he).ne' hkey
    rw [heldFields, if_neg hnew, ih hrest hvrest, hfield]
    cases rest with
    | nil => rfl
    | cons e rest => exact if_pos (hlt e List.mem_cons_self)

mutual

/-- A `Value` is kept as it is. -/
theorem held_held : ∀ value : JsonValue, value.held.held = value.held
  | .Array values => by
    rw [JsonValue.held, JsonValue.held, heldValues_heldValues values]
  | .Object fields => by
    rw [JsonValue.held, JsonValue.held,
      heldFields_of_sorted (sorted_heldFields fields) (held_of_mem_heldFields fields)]
  | .Null => rfl
  | .Bool _ => rfl
  | .Number _ => rfl
  | .String _ => rfl

theorem heldValues_heldValues : ∀ values, heldValues (heldValues values) = heldValues values
  | [] => rfl
  | value :: rest => by
    rw [heldValues, heldValues, held_held value, heldValues_heldValues rest]

theorem held_of_mem_heldFields :
    ∀ fields, ∀ field ∈ heldFields fields, field.2.held = field.2
  | [], field, h => by cases h
  | (key, value) :: rest, field, h => by
    rw [heldFields] at h
    split at h
    · exact held_of_mem_heldFields rest field h
    · rcases (SortedMap.mem_insertEntry (sorted_heldFields rest) field).mp h with rfl | ⟨-, h⟩
      · exact held_held value
      · exact held_of_mem_heldFields rest field h

end

/-! ## Members -/

/-- The member `key` of an object. -/
def member (key : String) (fields : List (List Char × JsonValue)) : Option JsonValue :=
  (fields.find? fun field => decide (field.1 = key.toList)).map Prod.snd

/-- A field of a struct: an unknown key is skipped, and a key must not occur
    twice. -/
def field (key : String) (fields : List (List Char × JsonValue)) : Option (Option JsonValue) :=
  match fields.filter fun field => decide (field.1 = key.toList) with
  | [] => some none
  | [(_, value)] => some (some value)
  | _ => none

/-- `Option<String>`. -/
def optionString : Option JsonValue → Option (Option (List Char))
  | none => some none
  | some .Null => some none
  | some (.String s) => some (some s)
  | _ => none

/-- `Option<Box<RawValue>>`. -/
def optionRaw : Option JsonValue → Option JsonValue
  | none => none
  | some .Null => none
  | some value => some value

/-- `Option<serde_json::Value>`. -/
def optionValue (value : Option JsonValue) : Option JsonValue := (optionRaw value).map (·.held)

/-- A field that is not written when it is `None`. -/
def optionalMember (key : String) (value : Option JsonValue) : List (List Char × JsonValue) :=
  (value.map fun value => (key.toList, value)).toList

theorem member_append {key : String} {fields fields' : List (List Char × JsonValue)} :
    member key (fields ++ fields') = (member key fields).or (member key fields') := by
  unfold member
  rw [List.find?_append]
  cases fields.find? fun field => decide (field.1 = key.toList) <;> rfl

theorem member_optionalMember {key key' : String} {value : Option JsonValue} :
    member key (optionalMember key' value) = if key' = key then value else none := by
  cases value with
  | none => simp [member, optionalMember]
  | some value =>
    by_cases h : key' = key
    · simp [member, optionalMember, h]
    · have hne : key'.toList ≠ key.toList := fun hl => h (String.toList_inj.mp hl)
      simp [member, optionalMember, h, hne]

/-- Present in both with the same value, or absent in both. -/
def SameMember (a b : Option JsonValue) : Prop := a.map (·.held) = b.map (·.held)

theorem sameMember_optionRaw {a : Option JsonValue} :
    SameMember a (optionRaw a) ↔ a ≠ some .Null := by
  unfold SameMember
  fun_cases optionRaw a with
  | case1 => simp
  | case2 => simp
  | case3 value hne => simpa using hne

theorem sameMember_optionValue {a : Option JsonValue} :
    SameMember a (optionValue a) ↔ a ≠ some .Null := by
  unfold SameMember optionValue
  fun_cases optionRaw a with
  | case1 => simp
  | case2 => simp
  | case3 value hne => simpa [held_held] using hne

theorem field_eq_some {key : String} {fields : List (List Char × JsonValue)}
    {value : Option JsonValue} (h : field key fields = some value) : member key fields = value := by
  unfold field at h
  unfold member
  rw [← List.head?_filter]
  split at h
  · rename_i hf
    rw [hf]
    exact Option.some.inj h
  · rename_i hf
    rw [hf]
    exact Option.some.inj h
  · cases h

/-! ## Requests -/

/-- `JsonRpcVersion` (lines 264–275). -/
inductive JsonRpcVersion
  | Bitcoind
  | Lightwalletd
  | TwoPointZero
  | Unknown
  deriving DecidableEq

/-- `JsonRpcRequest` (lines 279–287). -/
structure JsonRpcRequest where
  jsonrpc : Option (List Char)
  method : List Char
  params : Option JsonValue
  id : Option JsonValue

namespace JsonRpcRequest

/-- The derived `Deserialize`, given the members. -/
def ofMembers (jsonrpc method params id : Option JsonValue) : Option JsonRpcRequest :=
  match optionString jsonrpc, method with
  | some jsonrpc, some (.String method) => some ⟨jsonrpc, method, optionRaw params, optionValue id⟩
  | _, _ => none

/-- The derived `Deserialize`: of an object, or of an array that has the fields in
    their order. -/
def deserialize : JsonValue → Option JsonRpcRequest
  | .Object fields =>
    match field "jsonrpc" fields, field "method" fields, field "params" fields,
      field "id" fields with
    | some jsonrpc, some method, some params, some id => ofMembers jsonrpc method params id
    | _, _, _, _ => none
  | .Array [jsonrpc, method, params, id] =>
    ofMembers (some jsonrpc) (some method) (some params) (some id)
  | _ => none

/-- The members that the derived `Serialize` writes. -/
def fields (self : JsonRpcRequest) : List (List Char × JsonValue) :=
  optionalMember "jsonrpc" (self.jsonrpc.map .String) ++
    optionalMember "method" (some (.String self.method)) ++
    optionalMember "params" self.params ++ optionalMember "id" self.id

theorem member_fields (self : JsonRpcRequest) :
    member "jsonrpc" self.fields = self.jsonrpc.map .String ∧
      member "method" self.fields = some (.String self.method) ∧
      member "params" self.fields = self.params ∧ member "id" self.fields = self.id := by
  simp [fields, member_append, member_optionalMember]

/-- `version` (lines 290–307). -/
def version (self : JsonRpcRequest) : JsonRpcVersion :=
  if self.jsonrpc = some "2.0".toList then
    match self.id with
    | none | some .Null | some (.String _) | some (.Number _) => .TwoPointZero
    | _ => .Unknown
  else if self.jsonrpc = some "1.0".toList then
    if self.params.isSome ∧ self.id.isSome then .Lightwalletd else .Unknown
  else if self.jsonrpc = none then
    if self.params.isSome ∧ self.id.isSome then .Bitcoind else .Unknown
  else .Unknown

/-- `into_2` (lines 309–312). -/
def into2 (self : JsonRpcRequest) : JsonRpcRequest := { self with jsonrpc := some "2.0".toList }

end JsonRpcRequest

/-- A request body once it has been collected; a text that is not JSON is `none`. -/
inductive RequestBody
  | collected (text : Option JsonValue)
  | lengthLimit
  | unreadable

/-- `request_to_json_rpc_2` (lines 128–170). An error is the status of the response
    that is sent back. -/
def requestToJsonRpc2 : RequestBody → Except ℕ (JsonRpcVersion × Option JsonValue)
  | .lengthLimit => .error 413
  | .unreadable => .error 400
  | .collected text =>
    match text.bind JsonRpcRequest.deserialize with
    | some request =>
      match request.version with
      | .Unknown => .ok (.Unknown, text)
      | version => .ok (version, some (.Object request.into2.fields))
    | none => .ok (.Unknown, text)

section requests

variable {fields : List (List Char × JsonValue)} {text text' : Option JsonValue}
  {version : JsonRpcVersion} {request : JsonRpcRequest}

/-- A JSON-RPC 2.0 request with the same method, parameters and id. -/
structure FaithfulRequest (fields fields' : List (List Char × JsonValue)) : Prop where
  jsonrpc : member "jsonrpc" fields' = some (.String "2.0".toList)
  method : ∃ method, member "method" fields = some (.String method) ∧
    member "method" fields' = some (.String method)
  params : SameMember (member "params" fields) (member "params" fields')
  id : SameMember (member "id" fields) (member "id" fields')

/-- What the server is given is faithful to what the client sent. -/
def RewrittenFaithfully (text text' : Option JsonValue) : Prop :=
  ∃ fields fields', text = some (.Object fields) ∧ text' = some (.Object fields') ∧
    FaithfulRequest fields fields'

/-- An object in which neither `params` nor `id` is `null`. -/
def NoNullMember (text : Option JsonValue) : Prop :=
  ∃ fields, text = some (.Object fields) ∧ member "params" fields ≠ some .Null ∧
    member "id" fields ≠ some .Null

theorem deserialize_object (h : JsonRpcRequest.deserialize (.Object fields) = some request) :
    member "method" fields = some (.String request.method) ∧
      request.params = optionRaw (member "params" fields) ∧
      request.id = optionValue (member "id" fields) := by
  simp only [JsonRpcRequest.deserialize] at h
  split at h
  · rename_i jsonrpc method params id _ hmethod hparams hid
    rw [field_eq_some hmethod, field_eq_some hparams, field_eq_some hid]
    unfold JsonRpcRequest.ofMembers at h
    split at h
    · cases h
      exact ⟨rfl, rfl, rfl⟩
    · cases h
  · cases h

/-- A request is rewritten from its object. -/
theorem requestToJsonRpc2_eq (h : requestToJsonRpc2 (.collected text) = .ok (version, text'))
    (hv : version ≠ .Unknown) :
    ∃ value request, text = some value ∧ JsonRpcRequest.deserialize value = some request ∧
      text' = some (.Object request.into2.fields) := by
  unfold requestToJsonRpc2 at h
  cases text with
  | none =>
    cases h
    exact absurd rfl hv
  | some value =>
    simp only [Option.bind_some] at h
    split at h
    · rename_i request hrequest
      split at h
      · cases h
        exact absurd rfl hv
      · cases h
        exact ⟨value, request, rfl, hrequest, rfl⟩
    · cases h
      exact absurd rfl hv

theorem faithfulRequest_iff (h : JsonRpcRequest.deserialize (.Object fields) = some request) :
    FaithfulRequest fields request.into2.fields ↔
      member "params" fields ≠ some .Null ∧ member "id" fields ≠ some .Null := by
  obtain ⟨hmethod, hparams, hid⟩ := deserialize_object h
  obtain ⟨hjsonrpc', hmethod', hparams', hid'⟩ := request.into2.member_fields
  have hparams'' : member "params" request.into2.fields = optionRaw (member "params" fields) :=
    hparams'.trans hparams
  have hid'' : member "id" request.into2.fields = optionValue (member "id" fields) :=
    hid'.trans hid
  constructor
  · intro hfaithful
    have hp := hfaithful.params
    have hi := hfaithful.id
    rw [hparams'', sameMember_optionRaw] at hp
    rw [hid'', sameMember_optionValue] at hi
    exact ⟨hp, hi⟩
  · rintro ⟨hp, hi⟩
    refine ⟨hjsonrpc', ⟨_, hmethod, hmethod'⟩, ?_, ?_⟩
    · rw [hparams'', sameMember_optionRaw]
      exact hp
    · rw [hid'', sameMember_optionValue]
      exact hi

/-- A recognised request is rewritten faithfully exactly if neither its parameters
    nor its id are `null`. -/
theorem requestToJsonRpc2_faithful_iff
    (h : requestToJsonRpc2 (.collected text) = .ok (version, text')) (hv : version ≠ .Unknown) :
    RewrittenFaithfully text text' ↔ NoNullMember text := by
  obtain ⟨value, request, rfl, hrequest, rfl⟩ := requestToJsonRpc2_eq h hv
  constructor
  · rintro ⟨fields, fields', hvalue, hfields', hfaithful⟩
    cases hvalue
    cases hfields'
    exact ⟨fields, rfl, (faithfulRequest_iff hrequest).mp hfaithful⟩
  · rintro ⟨fields, hvalue, hnull⟩
    cases hvalue
    exact ⟨fields, _, rfl, rfl, (faithfulRequest_iff hrequest).mpr hnull⟩

end requests

/-! ## Responses -/

/-- `JsonRpcResponse` (lines 390–399). -/
structure JsonRpcResponse where
  jsonrpc : Option (List Char)
  result : Option JsonValue
  error : Option JsonValue
  id : JsonValue

namespace JsonRpcResponse

/-- The derived `Deserialize`, given the members. -/
def ofMembers (jsonrpc result error id : Option JsonValue) : Option JsonRpcResponse :=
  match optionString jsonrpc, id with
  | some jsonrpc, some id => some ⟨jsonrpc, optionRaw result, optionRaw error, id.held⟩
  | _, _ => none

/-- The derived `Deserialize`: of an object, or of an array that has the fields in
    their order. -/
def deserialize : JsonValue → Option JsonRpcResponse
  | .Object fields =>
    match field "jsonrpc" fields, field "result" fields, field "error" fields,
      field "id" fields with
    | some jsonrpc, some result, some error, some id => ofMembers jsonrpc result error id
    | _, _, _, _ => none
  | .Array [jsonrpc, result, error, id] =>
    ofMembers (some jsonrpc) (some result) (some error) (some id)
  | _ => none

/-- The members that the derived `Serialize` writes. -/
def fields (self : JsonRpcResponse) : List (List Char × JsonValue) :=
  optionalMember "jsonrpc" (self.jsonrpc.map .String) ++ optionalMember "result" self.result ++
    optionalMember "error" self.error ++ optionalMember "id" (some self.id)

theorem member_fields (self : JsonRpcResponse) :
    member "result" self.fields = self.result ∧ member "error" self.fields = self.error ∧
      member "id" self.fields = some self.id := by
  simp [fields, member_append, member_optionalMember]

/-- `into_version` (lines 402–430). An error is a failed assertion. -/
def intoVersion (self : JsonRpcResponse) : JsonRpcVersion → Except String JsonRpcResponse
  | .Bitcoind => .ok
    { self with
      jsonrpc := none
      result := self.result.or (some .Null)
      error := self.error.or (some .Null) }
  | .Lightwalletd => .ok
    { self with
      jsonrpc := some "1.0".toList
      result := self.result.or (some .Null)
      error := self.error.or (some .Null) }
  | .TwoPointZero =>
    if self.jsonrpc ≠ some "2.0".toList then .error "assertion failed: jsonrpc is 2.0"
    else if self.error.isNone then .ok { self with result := self.result.or (some .Null) }
    else if self.result.isNone then .ok self
    else .error "assertion failed: result is none"
  | .Unknown => .ok self

end JsonRpcResponse

/-- A response with its HTTP status. -/
structure HttpResponse where
  status : ℕ
  text : Option JsonValue

/-- The status of an error response for Bitcoin-flavoured clients (lines 186–196).
    `errorCode` reads an `ErrorObject`. -/
def errorStatus (errorCode : JsonValue → Option ℤ) (version : JsonRpcVersion)
    (error : Option JsonValue) (status : ℕ) : ℕ :=
  match version with
  | .Bitcoind | .Lightwalletd =>
    match error.bind errorCode with
    | some code => if code = -32600 then 400 else if code = -32601 then 404 else 500
    | none => status
  | _ => status

/-- `response_from_json_rpc_2` (lines 173–206). An error is a panic. -/
def responseFromJsonRpc2 (errorCode : JsonValue → Option ℤ) (version : JsonRpcVersion)
    (response : HttpResponse) : Except String HttpResponse :=
  match response.text.bind JsonRpcResponse.deserialize with
  | some parsed => do
    let mapped ← parsed.intoVersion version
    pure ⟨errorStatus errorCode version parsed.error response.status, some (.Object mapped.fields)⟩
  | none => pure response

section responses

variable {fields : List (List Char × JsonValue)} {version : JsonRpcVersion}
  {response response' : HttpResponse} {errorCode : JsonValue → Option ℤ}

/-- A response of JSON-RPC 2.0: no member occurs twice, and it has an id and either
    a result or an error, which is an object. -/
structure ValidResponse (fields : List (List Char × JsonValue)) : Prop where
  nodup : (fields.map Prod.fst).Nodup
  jsonrpc : member "jsonrpc" fields = some (.String "2.0".toList)
  id : (member "id" fields).isSome
  either : (member "result" fields).isSome ∧ member "error" fields = none ∨
    member "result" fields = none ∧ ∃ error, member "error" fields = some (.Object error)

/-- The member is the same, or `null` and was absent. -/
def SameOrNull (a b : Option JsonValue) : Prop := SameMember a b ∨ a = none ∧ b = some .Null

/-- The response that the client is given. -/
structure FaithfulResponse (fields fields' : List (List Char × JsonValue)) : Prop where
  id : SameMember (member "id" fields) (member "id" fields')
  result : SameOrNull (member "result" fields) (member "result" fields')
  error : SameOrNull (member "error" fields) (member "error" fields')

/-- What the client is given is faithful to what the server answered, and no
    assertion fails. -/
def AnsweredFaithfully (errorCode : JsonValue → Option ℤ) (version : JsonRpcVersion) (status : ℕ)
    (fields : List (List Char × JsonValue)) : Prop :=
  ∃ status' fields', responseFromJsonRpc2 errorCode version ⟨status, some (.Object fields)⟩ =
    .ok ⟨status', some (.Object fields')⟩ ∧ FaithfulResponse fields fields'

theorem field_of_nodup (h : (fields.map Prod.fst).Nodup) (key : String) :
    field key fields = some (member key fields) := by
  unfold field member
  rw [← List.head?_filter]
  have hle : (fields.filter fun field => decide (field.1 = key.toList)).length ≤ 1 := by
    have hcount := List.nodup_iff_count_le_one.mp h key.toList
    rw [List.count_eq_countP, List.countP_map, List.countP_eq_length_filter] at hcount
    refine le_trans (le_of_eq ?_) hcount
    congr 1
    exact List.filter_congr fun field _ => by simp [beq_eq_decide]
  split
  · rename_i hf
    rw [hf]
    rfl
  · rename_i hf
    rw [hf]
    rfl
  · rename_i hnil hone
    cases hf : fields.filter fun field => decide (field.1 = key.toList) with
    | nil => exact absurd hf hnil
    | cons a rest =>
      cases rest with
      | nil => exact absurd hf (hone a.1 a.2)
      | cons b rest =>
        rw [hf] at hle
        simp at hle

theorem deserialize_valid (h : ValidResponse fields) :
    ∃ id, member "id" fields = some id ∧ JsonRpcResponse.deserialize (.Object fields) =
      some ⟨some "2.0".toList, optionRaw (member "result" fields),
        optionRaw (member "error" fields), id.held⟩ := by
  obtain ⟨id, hid⟩ := Option.isSome_iff_exists.mp h.id
  refine ⟨id, hid, ?_⟩
  simp only [JsonRpcResponse.deserialize, field_of_nodup h.nodup, h.jsonrpc, hid]
  rfl

theorem sameOrNull_or (a : Option JsonValue) : SameOrNull a ((optionRaw a).or (some .Null)) := by
  fun_cases optionRaw a with
  | case1 => exact Or.inr ⟨rfl, rfl⟩
  | case2 => exact Or.inl rfl
  | case3 value hne => exact Or.inl rfl

theorem sameOrNull_optionRaw {a : Option JsonValue} :
    SameOrNull a (optionRaw a) ↔ a ≠ some .Null := by
  unfold SameOrNull
  rw [sameMember_optionRaw]
  constructor
  · rintro (h | ⟨rfl, -⟩)
    · exact h
    · simp
  · exact Or.inl

/-- The mapped response is faithful if its members are. -/
theorem answeredFaithfully_iff (h : ValidResponse fields) (status : ℕ) :
    AnsweredFaithfully errorCode version status fields ↔
      ∃ mapped, JsonRpcResponse.intoVersion ⟨some "2.0".toList, optionRaw (member "result" fields),
          optionRaw (member "error" fields), ((member "id" fields).getD .Null).held⟩ version =
          .ok mapped ∧
        SameMember (member "id" fields) (some mapped.id) ∧
        SameOrNull (member "result" fields) mapped.result ∧
        SameOrNull (member "error" fields) mapped.error := by
  obtain ⟨id, hid, hparsed⟩ := deserialize_valid h
  unfold AnsweredFaithfully responseFromJsonRpc2
  simp only [Option.bind_some, hparsed, hid, Option.getD_some]
  cases hmapped : JsonRpcResponse.intoVersion ⟨some "2.0".toList,
    optionRaw (member "result" fields), optionRaw (member "error" fields), id.held⟩ version with
  | error e =>
    constructor
    · rintro ⟨status', fields', hnone, -⟩
      cases hnone
    · rintro ⟨mapped, hnone, -⟩
      cases hnone
  | ok mapped =>
    obtain ⟨hresult, herror, hid'⟩ := mapped.member_fields
    constructor
    · rintro ⟨status', fields', hsome, hfaithful⟩
      cases hsome
      refine ⟨mapped, rfl, ?_, ?_, ?_⟩
      · rw [← hid', ← hid]
        exact hfaithful.id
      · rw [← hresult]
        exact hfaithful.result
      · rw [← herror]
        exact hfaithful.error
    · rintro ⟨mapped', hsome, hi, hr, he⟩
      cases hsome
      refine ⟨_, _, rfl, ?_, ?_, ?_⟩
      · rw [hid', hid]
        exact hi
      · rw [hresult]
        exact hr
      · rw [herror]
        exact he

/-- A valid response reaches the client faithfully, except for a result `null`
    where the version of the request is not known. -/
theorem responseFromJsonRpc2_faithful_iff (h : ValidResponse fields) (status : ℕ) :
    AnsweredFaithfully errorCode version status fields ↔
      ¬ (version = .Unknown ∧ member "result" fields = some .Null) := by
  have hid : SameMember (member "id" fields) (some ((member "id" fields).getD .Null).held) := by
    obtain ⟨id, hid⟩ := Option.isSome_iff_exists.mp h.id
    rw [hid]
    exact congrArg some (held_held id).symm
  have herror : SameOrNull (member "error" fields) (optionRaw (member "error" fields)) := by
    rw [sameOrNull_optionRaw]
    rcases h.either with ⟨-, he⟩ | ⟨-, e, he⟩ <;> simp [he]
  rw [answeredFaithfully_iff h]
  cases version with
  | Bitcoind =>
    refine iff_of_true ⟨_, rfl, hid, sameOrNull_or _, sameOrNull_or _⟩ ?_
    rintro ⟨hv, -⟩
    cases hv
  | Lightwalletd =>
    refine iff_of_true ⟨_, rfl, hid, sameOrNull_or _, sameOrNull_or _⟩ ?_
    rintro ⟨hv, -⟩
    cases hv
  | TwoPointZero =>
    refine iff_of_true ?_ (by rintro ⟨hv, -⟩; cases hv)
    rcases h.either with ⟨-, he⟩ | ⟨hr, e, he⟩
    · rw [he] at herror ⊢
      exact ⟨_, rfl, hid, sameOrNull_or _, herror⟩
    · rw [he] at herror ⊢
      rw [hr]
      exact ⟨_, rfl, hid, Or.inl rfl, herror⟩
  | Unknown =>
    constructor
    · rintro ⟨mapped, hmapped, -, hr, -⟩ ⟨-, hnull⟩
      cases hmapped
      exact sameOrNull_optionRaw.mp hr hnull
    · intro hnull
      refine ⟨_, rfl, hid, sameOrNull_optionRaw.mpr fun hr => hnull ⟨rfl, hr⟩, herror⟩

end responses

/-- The bridging in both directions. A recognised request is rewritten faithfully
    exactly if it is an object in which neither `params` nor `id` is `null`, and a
    valid response except for a result `null` where the version is not known. -/
theorem bridging_faithful_iff (errorCode : JsonValue → Option ℤ) :
    (∀ text version text', requestToJsonRpc2 (.collected text) = .ok (version, text') →
      version ≠ .Unknown → (RewrittenFaithfully text text' ↔ NoNullMember text)) ∧
    ∀ version status fields, ValidResponse fields →
      (AnsweredFaithfully errorCode version status fields ↔
        ¬ (version = .Unknown ∧ member "result" fields = some .Null)) :=
  ⟨fun _ _ _ => requestToJsonRpc2_faithful_iff,
    fun _ status _ h => responseFromJsonRpc2_faithful_iff h status⟩

/-- `{"method":"getinfo","params":[],"id":1}`. -/
def getInfo : List (List Char × JsonValue) :=
  [("method".toList, .String "getinfo".toList), ("params".toList, .Array []),
    ("id".toList, .Number ['1'])]

/-- `{"jsonrpc":"2.0","result":null,"id":1}`. -/
def nullResult : List (List Char × JsonValue) :=
  [("jsonrpc".toList, .String "2.0".toList), ("result".toList, .Null), ("id".toList, .Number ['1'])]

/-- A call of a `bitcoind` client, and the answer to it. -/
theorem bridging_faithful_getInfo :
    (∃ text', requestToJsonRpc2 (.collected (some (.Object getInfo))) = .ok (.Bitcoind, text') ∧
      RewrittenFaithfully (some (.Object getInfo)) text') ∧
    AnsweredFaithfully (fun _ => none) .Bitcoind 200 nullResult := by
  obtain ⟨hrequest, hresponse⟩ := bridging_faithful_iff fun _ => none
  constructor
  · refine ⟨_, rfl, (hrequest _ .Bitcoind _ rfl (by decide)).mpr ⟨getInfo, rfl, ?_, ?_⟩⟩
    · exact fun h => by cases h
    · exact fun h => by cases h
  · refine (hresponse .Bitcoind 200 nullResult ?_).mpr ?_
    · exact ⟨by decide, rfl, rfl, Or.inl ⟨rfl, rfl⟩⟩
    · rintro ⟨hv, -⟩
      cases hv

/-! ## A call with a null id -/

/-- `{"jsonrpc":"2.0","method":"stop","id":null}`. -/
def nullId : List (List Char × JsonValue) :=
  [("jsonrpc".toList, .String "2.0".toList), ("method".toList, .String "stop".toList),
    ("id".toList, .Null)]

/-- `{"jsonrpc":"2.0","method":"stop"}`: a notification. -/
def notification : List (List Char × JsonValue) :=
  [("jsonrpc".toList, .String "2.0".toList), ("method".toList, .String "stop".toList)]

/-- The call becomes a notification. -/
theorem requestToJsonRpc2_nullId :
    requestToJsonRpc2 (.collected (some (.Object nullId))) =
        .ok (.TwoPointZero, some (.Object notification)) ∧
      ¬ RewrittenFaithfully (some (.Object nullId)) (some (.Object notification)) := by
  refine ⟨rfl, ?_⟩
  rintro ⟨fields, fields', hvalue, hvalue', hfaithful⟩
  cases hvalue
  cases hvalue'
  have hid : SameMember (some .Null) none := hfaithful.id
  cases hid

end Zallet.Rpc
