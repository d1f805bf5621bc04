import Bundler.DeepHexlify

/-!
The RPC handler: the checks a request has to pass before its handler runs,
and what is made of the handler's result. A result that does not hexlify is
answered with nothing at all, since createSuccessResponse builds an error for
it but does not return it. A method name that every object inherits passes
for a registered one, and then there is no function to check its params with.
-/
namespace Bundler.RpcHandler

open AsyncPrograms DataModel DeepHexlify

/-- The body of a request; a property that is missing is undefined. -/
structure JsonRpcRequest where
  jsonrpc : JsValue
  method : JsValue
  params : JsValue
  id : JsValue

structure JsonRpcSuccessResponse where
  jsonrpc : String
  id : JsValue
  result : JsValue

/-- What awaiting a handler's promise comes to. -/
inductive HandlerResult
  | rejects (e : JsError)
  | plain (value : JsValue)
  | either (result : Except RpcError JsValue)

structure Handler where
  handlerFunc : List JsValue → HandlerResult
  validationFunc : List JsValue → Bool

/-- The own properties of the registry object. -/
abbrev HandlerRegistry := String → Option Handler

/-- A promise that was rejected, or resolved to an Either or to undefined. -/
abbrev Outcome := Except JsError (Option (Except RpcError JsonRpcSuccessResponse))

/-- What became of a request, with the params of every call of a handler. -/
structure Handled where
  calls : List (List JsValue)
  outcome : Outcome

/-- The error of the catch is built and dropped. -/
def createSuccessResponse (toBeHex : Numeric → Except JsError String) (id result : JsValue) :
    Option (Except RpcError JsonRpcSuccessResponse) :=
  match deepHexlify toBeHex result with
  | .ok hexlifyResult => some (.ok ⟨"2.0", id, hexlifyResult⟩)
  | .error _ => none

section Checks

variable (request : JsonRpcRequest)

def invalidRequest (message : String) : RpcError := ⟨message, -32600, none⟩

def isValidRpc : Except RpcError JsonRpcRequest :=
  match request.jsonrpc with
  | .string "2.0" => .ok request
  | _ => .error (invalidRequest "Invalid Request, jsonrpc must be exactly \"2.0\"")

def isValidMethodString : Except RpcError JsonRpcRequest :=
  match request.method with
  | .string "" => .error (invalidRequest "Invalid Request, method must be a string")
  | .string _ => .ok request
  | _ => .error (invalidRequest "Invalid Request, method must be a string")

def requestIdNotMissing : Except RpcError JsonRpcRequest :=
  match request.id with
  | .undefined => .error (invalidRequest "Invalid Request, id is missing")
  | _ => .ok request

def idTypeStringOrNumber : Except RpcError JsonRpcRequest :=
  match request.id with
  | .numeric (.number _) => .ok request
  | .string _ => .ok request
  | _ => .error (invalidRequest "Invalid Request, id must be a number or string")

def paramsIsArray : Except RpcError JsonRpcRequest :=
  match request.params with
  | .array _ => .ok request
  | _ => .error (invalidRequest "Invalid Request, params must be an array")

/-- The method, once it is known to be a string. -/
def JsonRpcRequest.methodName : String :=
  match request.method with
  | .string method => method
  | _ => ""

/-- The params, once they are known to be an array. -/
def JsonRpcRequest.paramList : List JsValue :=
  match request.params with
  | .array params => params
  | _ => []

/-- The part of a method before its first underscore. -/
def apiPrefix (method : String) : String :=
  String.ofList (method.toList.takeWhile fun c => c ≠ '_')

def apiEnabled (supportedApiPrefixes : List String) : Except RpcError JsonRpcRequest :=
  if apiPrefix request.methodName ∉ supportedApiPrefixes then
    .error (invalidRequest ("Method " ++ request.methodName ++
      " is not supported. Make sure the API is enabled in the config"))
  else .ok request

/-- The properties of Object.prototype. -/
def inheritedNames : List String :=
  ["constructor", "__defineGetter__", "__defineSetter__", "hasOwnProperty", "__lookupGetter__",
    "__lookupSetter__", "isPrototypeOf", "propertyIsEnumerable", "toString", "valueOf",
    "__proto__", "toLocaleString"]

/-- A request with the functions of its handler, undefined on a property that
the registry inherits. -/
structure ValidateJsonRpcRequest where
  method : String
  params : List JsValue
  id : JsValue
  handlerFunc : Option (List JsValue → HandlerResult)
  validationFunc : Option (List JsValue → Bool)

def transformRequest (handlerRegistry : HandlerRegistry) :
    Except RpcError ValidateJsonRpcRequest :=
  let method := request.methodName
  let params := request.paramList
  match handlerRegistry method with
  | some handler =>
      .ok ⟨method, params, request.id, some handler.handlerFunc, some handler.validationFunc⟩
  | none =>
      if method ∈ inheritedNames then .ok ⟨method, params, request.id, none, none⟩
      else .error (invalidRequest ("Method " ++ method ++ " is not supported"))

end Checks

/-- Calling an undefined validationFunc throws. -/
def isParamsValid (validReq : ValidateJsonRpcRequest) :
    Except JsError (Except RpcError ValidateJsonRpcRequest) :=
  match validReq.validationFunc with
  | none => .error .typeError
  | some validationFunc =>
      if !validationFunc validReq.params then
        .ok (.error ⟨"Invalid params for method " ++ validReq.method, -32602, none⟩)
      else .ok (.ok validReq)

section Handling

variable (toBeHex : Numeric → Except JsError String) (handlerRegistry : HandlerRegistry)
  (supportedApiPrefixes : List String) (request : JsonRpcRequest)

/-- The checks before the one of the params. -/
def checkRequest : Except RpcError ValidateJsonRpcRequest := do
  let request ← isValidRpc request
  let request ← isValidMethodString request
  let request ← requestIdNotMissing request
  let request ← idTypeStringOrNumber request
  let request ← paramsIsArray request
  let request ← apiEnabled request supportedApiPrefixes
  transformRequest request handlerRegistry

/-- What is made of the handler's result. -/
def answer (id : JsValue) : HandlerResult → Outcome
  | .rejects e => .error e
  | .plain value => .ok (createSuccessResponse toBeHex id value)
  | .either (.error error) => .ok (some (.error error))
  | .either (.ok response) => .ok (createSuccessResponse toBeHex id response)

/-- The second function of the final foldAsync. -/
def callHandler (validateReq : ValidateJsonRpcRequest) : Handled :=
  match validateReq.handlerFunc with
  | none => ⟨[], .error .typeError⟩
  | some handlerFunc =>
      ⟨[validateReq.params], answer toBeHex validateReq.id (handlerFunc validateReq.params)⟩

def doHandleRequest : Handled :=
  match checkRequest handlerRegistry supportedApiPrefixes request with
  | .error error => ⟨[], .ok (some (.error error))⟩
  | .ok validReq =>
      match isParamsValid validReq with
      | .error e => ⟨[], .error e⟩
      | .ok (.error error) => ⟨[], .ok (some (.error error))⟩
      | .ok (.ok validateReq) => callHandler toBeHex validateReq

end Handling

section Answers

variable {toBeHex : Numeric → Except JsError String} {handlerRegistry : HandlerRegistry}
  {supportedApiPrefixes : List String} {request : JsonRpcRequest}

/-- The checks of version, method, id, params and namespace all pass. -/
structure WellFormed (supportedApiPrefixes : List String) (request : JsonRpcRequest)
    (method : String) (params : List JsValue) : Prop where
  jsonrpc : request.jsonrpc = .string "2.0"
  method_eq : request.method = .string method
  method_ne : method ≠ ""
  id : (∃ text, request.id = .string text) ∨ ∃ value, request.id = .numeric (.number value)
  params_eq : request.params = .array params
  enabled : apiPrefix method ∈ supportedApiPrefixes

/-- The method is registered with this handler, and its params pass. -/
structure Accepts (handlerRegistry : HandlerRegistry) (method : String) (params : List JsValue)
    (handler : Handler) : Prop where
  registered : handlerRegistry method = some handler
  valid : handler.validationFunc params = true

theorem isValidRpc_ok_iff {request' : JsonRpcRequest} :
    isValidRpc request = .ok request' ↔ request.jsonrpc = .string "2.0" ∧ request = request' := by
  unfold isValidRpc
  split
  · rename_i h
    simp [h]
  · rename_i h
    exact iff_of_false nofun fun hpassed => h hpassed.1

theorem isValidMethodString_ok_iff {request' : JsonRpcRequest} :
    isValidMethodString request = .ok request' ↔
      (∃ method, request.method = .string method ∧ method ≠ "") ∧ request = request' := by
  unfold isValidMethodString
  split
  · rename_i h
    simp [h]
  · rename_i method hne h
    have hmethod : method ≠ "" := hne
    simp [h, hmethod]
  · rename_i h
    exact iff_of_false nofun fun ⟨⟨method, hmethod, _⟩, _⟩ => h method hmethod

theorem requestIdNotMissing_ok_iff {request' : JsonRpcRequest} :
    requestIdNotMissing request = .ok request' ↔
      request.id ≠ .undefined ∧ request = request' := by
  unfold requestIdNotMissing
  split
  · rename_i h
    simp [h]
  · rename_i h
    rw [Except.ok.injEq]
    exact (and_iff_right h).symm

theorem idTypeStringOrNumber_ok_iff {request' : JsonRpcRequest} :
    idTypeStringOrNumber request = .ok request' ↔
      ((∃ text, request.id = .string text) ∨ ∃ value, request.id = .numeric (.number value)) ∧
        request = request' := by
  unfold idTypeStringOrNumber
  split
  · rename_i h
    simp [h]
  · rename_i h
    simp [h]
  · rename_i hnumber hstring
    refine iff_of_false nofun ?_
    rintro ⟨⟨text, htext⟩ | ⟨value, hvalue⟩, _⟩
    · exact hstring text htext
    · exact hnumber value hvalue

theorem paramsIsArray_ok_iff {request' : JsonRpcRequest} :
    paramsIsArray request = .ok request' ↔
      (∃ params, request.params = .array params) ∧ request = request' := by
  unfold paramsIsArray
  split
  · rename_i h
    simp [h]
  · rename_i h
    exact iff_of_false nofun fun ⟨⟨params, hparams⟩, _⟩ => h params hparams

theorem apiEnabled_ok_iff {request' : JsonRpcRequest} :
    apiEnabled request supportedApiPrefixes = .ok request' ↔
      apiPrefix request.methodName ∈ supportedApiPrefixes ∧ request = request' := by
  unfold apiEnabled
  split
  · rename_i h
    exact iff_of_false nofun fun hpassed => h hpassed.1
  · rename_i h
    simp [not_not.mp h]

theorem WellFormed.methodName {method : String} {params : List JsValue}
    (h : WellFormed supportedApiPrefixes request method params) :
    request.methodName = method := by
  unfold JsonRpcRequest.methodName
  rw [h.method_eq]

theorem WellFormed.paramList {method : String} {params : List JsValue}
    (h : WellFormed supportedApiPrefixes request method params) : request.paramList = params := by
  unfold JsonRpcRequest.paramList
  rw [h.params_eq]

/-- What passes the checks before the lookup. -/
theorem checkRequest_ok_iff {validReq : ValidateJsonRpcRequest} :
    checkRequest handlerRegistry supportedApiPrefixes request = .ok validReq ↔
      ∃ method params, WellFormed supportedApiPrefixes request method params ∧
        transformRequest request handlerRegistry = .ok validReq := by
  unfold checkRequest
  simp only [except_bind_eq_ok_iff, isValidRpc_ok_iff, isValidMethodString_ok_iff,
    requestIdNotMissing_ok_iff, idTypeStringOrNumber_ok_iff, paramsIsArray_ok_iff,
    apiEnabled_ok_iff]
  constructor
  · rintro ⟨_, ⟨hjsonrpc, rfl⟩, _, ⟨⟨method, hmethod, hne⟩, rfl⟩, _, ⟨_, rfl⟩, _, ⟨hid, rfl⟩, _,
      ⟨⟨params, hparams⟩, rfl⟩, _, ⟨henabled, rfl⟩, htransform⟩
    have hname : request.methodName = method := by
      unfold JsonRpcRequest.methodName
      rw [hmethod]
    exact ⟨method, params, ⟨hjsonrpc, hmethod, hne, hid, hparams, hname ▸ henabled⟩, htransform⟩
  · rintro ⟨method, params, h, htransform⟩
    have hid : request.id ≠ .undefined := by
      rcases h.id with ⟨text, hid⟩ | ⟨value, hid⟩
      · simp [hid]
      · simp [hid]
    exact ⟨_, ⟨h.jsonrpc, rfl⟩, _, ⟨⟨method, h.method_eq, h.method_ne⟩, rfl⟩, _, ⟨hid, rfl⟩, _,
      ⟨h.id, rfl⟩, _, ⟨⟨params, h.params_eq⟩, rfl⟩, _, ⟨h.methodName ▸ h.enabled, rfl⟩, htransform⟩

variable {method : String} {params : List JsValue} {handler : Handler}

theorem doHandleRequest_of_accepts
    (hformed : WellFormed supportedApiPrefixes request method params)
    (haccepts : Accepts handlerRegistry method params handler) :
    doHandleRequest toBeHex handlerRegistry supportedApiPrefixes request =
      ⟨[params], answer toBeHex request.id (handler.handlerFunc params)⟩ := by
  have hcheck : checkRequest handlerRegistry supportedApiPrefixes request =
      .ok ⟨method, params, request.id, some handler.handlerFunc, some handler.validationFunc⟩ := by
    refine checkRequest_ok_iff.mpr ⟨method, params, hformed, ?_⟩
    unfold transformRequest
    rw [hformed.methodName, hformed.paramList]
    dsimp only
    rw [haccepts.registered]
  unfold doHandleRequest isParamsValid
  rw [hcheck]
  dsimp only
  rw [haccepts.valid]
  rfl

theorem doHandleRequest_of_inherited
    (hformed : WellFormed supportedApiPrefixes request method params)
    (hnone : handlerRegistry method = none) (hinherited : method ∈ inheritedNames) :
    doHandleRequest toBeHex handlerRegistry supportedApiPrefixes request =
      ⟨[], .error .typeError⟩ := by
  have hcheck : checkRequest handlerRegistry supportedApiPrefixes request =
      .ok ⟨method, params, request.id, none, none⟩ := by
    refine checkRequest_ok_iff.mpr ⟨method, params, hformed, ?_⟩
    unfold transformRequest
    rw [hformed.methodName, hformed.paramList]
    dsimp only
    rw [hnone]
    exact if_pos hinherited
  unfold doHandleRequest isParamsValid
  rw [hcheck]

/-- Any other request is refused with an error, and no handler runs. -/
theorem doHandleRequest_refused
    (hrefused : ∀ method params, WellFormed supportedApiPrefixes request method params →
      (handlerRegistry method = none → method ∉ inheritedNames) ∧
        ∀ handler, ¬Accepts handlerRegistry method params handler) :
    ∃ error, doHandleRequest toBeHex handlerRegistry supportedApiPrefixes request =
      ⟨[], .ok (some (.error error))⟩ := by
  unfold doHandleRequest
  cases hcheck : checkRequest handlerRegistry supportedApiPrefixes request with
  | error error => exact ⟨error, rfl⟩
  | ok validReq =>
    obtain ⟨method, params, hformed, htransform⟩ := checkRequest_ok_iff.mp hcheck
    obtain ⟨hown, hnot⟩ := hrefused method params hformed
    unfold transformRequest at htransform
    rw [hformed.methodName, hformed.paramList] at htransform
    dsimp only at htransform
    cases hmethod : handlerRegistry method with
    | none =>
      rw [hmethod] at htransform
      dsimp only at htransform
      rw [if_neg (hown hmethod)] at htransform
      cases htransform
    | some handler =>
      rw [hmethod] at htransform
      cases htransform
      have hinvalid : handler.validationFunc params = false :=
        Bool.eq_false_iff.mpr fun hvalid => hnot handler ⟨hmethod, hvalid⟩
      unfold isParamsValid
      dsimp only
      rw [hinvalid]
      exact ⟨_, rfl⟩

end Answers

section Exactly

variable {toBeHex : Numeric → Except JsError String} {handlerRegistry : HandlerRegistry}
  {supportedApiPrefixes : List String} {request : JsonRpcRequest}

/-- A promise that resolves to a Left, or to a Right for this request, or is
rejected by the handler, which runs only after all checks. -/
structure WellAnswered (handlerRegistry : HandlerRegistry) (supportedApiPrefixes : List String)
    (request : JsonRpcRequest) (handled : Handled) : Prop where
  resolved : handled.outcome ≠ .ok none
  right : ∀ response, handled.outcome = .ok (some (.ok response)) →
    response.jsonrpc = "2.0" ∧ response.id = request.id
  rejected : ∀ e, handled.outcome = .error e → ∃ method params handler,
    WellFormed supportedApiPrefixes request method params ∧
      Accepts handlerRegistry method params handler ∧ handler.handlerFunc params = .rejects e
  checked : ∀ params ∈ handled.calls, ∃ method handler,
    WellFormed supportedApiPrefixes request method params ∧
      Accepts handlerRegistry method params handler

/-- The value a success response would carry. -/
def HandlerResult.Carries (result : HandlerResult) (value : JsValue) : Prop :=
  result = .plain value ∨ result = .either (.ok value)

/-- No request for an inherited name gets to the lookup, and what an accepted
one is answered with can be hexlified. -/
structure Answerable (handlerRegistry : HandlerRegistry) (supportedApiPrefixes : List String)
    (request : JsonRpcRequest) : Prop where
  own : ∀ method params, WellFormed supportedApiPrefixes request method params →
    handlerRegistry method = none → method ∉ inheritedNames
  hexlifiable : ∀ method params handler value,
    WellFormed supportedApiPrefixes request method params →
      Accepts handlerRegistry method params handler →
        (handler.handlerFunc params).Carries value → Hexlifiable value

theorem createSuccessResponse_eq_none_iff (hdoc : Documented toBeHex) (id value : JsValue) :
    createSuccessResponse toBeHex id value = none ↔ ¬Hexlifiable value := by
  rw [← hdoc.deepHexlify_ok_iff]
  unfold createSuccessResponse
  cases deepHexlify toBeHex value with
  | ok result => exact iff_of_false nofun (not_not.mpr ⟨result, rfl⟩)
  | error e => exact iff_of_true rfl nofun

theorem createSuccessResponse_right {id value : JsValue} {response : JsonRpcSuccessResponse}
    (h : createSuccessResponse toBeHex id value = some (.ok response)) :
    response.jsonrpc = "2.0" ∧ response.id = id := by
  unfold createSuccessResponse at h
  cases hresult : deepHexlify toBeHex value with
  | ok result =>
    rw [hresult] at h
    cases h
    exact ⟨rfl, rfl⟩
  | error e =>
    rw [hresult] at h
    cases h

theorem answer_of_carries {result : HandlerResult} {value : JsValue}
    (h : result.Carries value) (id : JsValue) :
    answer toBeHex id result = .ok (createSuccessResponse toBeHex id value) := by
  rcases h with rfl | rfl
  · rfl
  · rfl

/-- Every answer of a handler is well formed, if what it carries hexlifies. -/
theorem wellAnswered_of_accepts (hdoc : Documented toBeHex) {method : String}
    {params : List JsValue} {handler : Handler}
    (hformed : WellFormed supportedApiPrefixes request method params)
    (haccepts : Accepts handlerRegistry method params handler)
    (hcarries : ∀ value, (handler.handlerFunc params).Carries value → Hexlifiable value) :
    WellAnswered handlerRegistry supportedApiPrefixes request
      ⟨[params], answer toBeHex request.id (handler.handlerFunc params)⟩ := by
  have hchecked : ∀ other ∈ [params], ∃ method handler,
      WellFormed supportedApiPrefixes request method other ∧
        Accepts handlerRegistry method other handler :=
    List.forall_mem_singleton.mpr ⟨method, handler, hformed, haccepts⟩
  have hcarried : ∀ value, (handler.handlerFunc params).Carries value →
      WellAnswered handlerRegistry supportedApiPrefixes request
        ⟨[params], answer toBeHex request.id (handler.handlerFunc params)⟩ := by
    intro value hvalue
    rw [answer_of_carries hvalue]
    refine ⟨?_, ?_, nofun, hchecked⟩
    · intro hnone
      exact (createSuccessResponse_eq_none_iff hdoc request.id value).mp (Except.ok.inj hnone)
        (hcarries value hvalue)
    · intro response hresponse
      exact createSuccessResponse_right (Except.ok.inj hresponse)
  cases hresult : handler.handlerFunc params with
  | rejects e =>
    refine ⟨nofun, nofun, ?_, hchecked⟩
    rintro _ ⟨⟩
    exact ⟨method, params, handler, hformed, haccepts, hresult⟩
  | plain value => exact hresult ▸ hcarried value (Or.inl hresult)
  | either result =>
    cases result with
    | error error => exact ⟨nofun, nofun, nofun, hchecked⟩
    | ok value => exact hresult ▸ hcarried value (Or.inr hresult)

/-- A request is answered as it should exactly when it names no inherited
property and the handler's value has no number that does not hexlify. -/
theorem well_answered_iff (hdoc : Documented toBeHex) :
    WellAnswered handlerRegistry supportedApiPrefixes request
        (doHandleRequest toBeHex handlerRegistry supportedApiPrefixes request) ↔
      Answerable handlerRegistry supportedApiPrefixes request := by
  constructor
  · intro h
    constructor
    · intro method params hformed hnone hinherited
      rw [doHandleRequest_of_inherited hformed hnone hinherited] at h
      obtain ⟨method', params', handler, hformed', haccepts, _⟩ := h.rejected _ rfl
      have hsame : method = method' := hformed.methodName.symm.trans hformed'.methodName
      rw [hsame, haccepts.registered] at hnone
      cases hnone
    · intro method params handler value hformed haccepts hcarries
      have hresolved := h.resolved
      rw [doHandleRequest_of_accepts hformed haccepts, answer_of_carries hcarries] at hresolved
      by_contra hnot
      exact hresolved
        (congrArg _ ((createSuccessResponse_eq_none_iff hdoc request.id value).mpr hnot))
  · intro h
    by_cases haccepted : ∃ method params handler,
        WellFormed supportedApiPrefixes request method params ∧
          Accepts handlerRegistry method params handler
    · obtain ⟨method, params, handler, hformed, haccepts⟩ := haccepted
      rw [doHandleRequest_of_accepts hformed haccepts]
      exact wellAnswered_of_accepts hdoc hformed haccepts
        fun value => h.hexlifiable method params handler value hformed haccepts
    · have hrefused : ∃ error,
          doHandleRequest toBeHex handlerRegistry supportedApiPrefixes request =
            ⟨[], .ok (some (.error error))⟩ :=
        doHandleRequest_refused fun method params hformed => ⟨h.own method params hformed,
          fun handler haccepts => haccepted ⟨method, params, handler, hformed, haccepts⟩⟩
      obtain ⟨error, herror⟩ := hrefused
      rw [herror]
      exact ⟨nofun, nofun, nofun, nofun⟩

/-- The registry with debug_bundler_dumpReputation alone, for one entry. -/
def dumpRegistry (opsSeen : ℚ) : HandlerRegistry := fun method =>
  if method = "debug_bundler_dumpReputation" then
    some
      { validationFunc := fun params => params.length = 1
        handlerFunc := fun _ => .plain (.array [.object
          [("address", .string "0xaa"), ("opsSeen", .numeric (.number opsSeen)),
            ("opsIncluded", .numeric (.number 0)), ("status", .numeric (.number 0))]]) }
  else none

def dumpRequest : JsonRpcRequest where
  jsonrpc := .string "2.0"
  method := .string "debug_bundler_dumpReputation"
  params := .array [.string "0xee"]
  id := .numeric (.number 1)

theorem dump_well_answered :
    WellAnswered (dumpRegistry 3) ["eth", "debug"] dumpRequest
      (doHandleRequest documentedToBeHex (dumpRegistry 3) ["eth", "debug"] dumpRequest) := by
  refine (well_answered_iff documented).mpr ⟨?_, ?_⟩
  · intro method params hformed hnone
    cases hformed.method_eq
    cases hnone
  · intro method params handler value hformed haccepts hcarries
    cases hformed.method_eq
    cases haccepts.registered
    rcases hcarries with hcarries | hcarries
    · cases hcarries
      unfold Hexlifiable
      decide
    · cases hcarries

/-- The counter of a paymaster forgiven before it was seen again is negative;
dumping it leaves the caller without an answer. -/
theorem negative_counter_unanswered :
    ¬WellAnswered (dumpRegistry (-1)) ["eth", "debug"] dumpRequest
      (doHandleRequest documentedToBeHex (dumpRegistry (-1)) ["eth", "debug"] dumpRequest) :=
  fun h => h.resolved rfl

end Exactly

end Bundler.RpcHandler
