import ServiceDiscovery.Assignment
/-!
# Messages

What travels between client and discovery server. A request names the resources that are wanted and
answers for the response before it; a response carries resources, each a typed payload that is still
JSON. Only a payload of the endpoint type can be decoded.
-/

namespace ServiceDiscovery

open Json (Shape Fields)

structure Request where
  clientIdentity : String
  resourceType : String
  resourceNames : List String
  versionInfo : String
  responseNonce : String
  /-- Why the response before was rejected, if it was. -/
  errorDetail : Option String
  deriving DecidableEq, Repr

structure Resource where
  typeUrl : String
  value : Json
  deriving Repr

structure Response where
  versionInfo : String
  nonce : String
  resources : List Resource
  deriving Repr

/-- Why a resource is no endpoint list. -/
inductive DecodeFailure where
  | unsupportedType (typeUrl : String)
  | malformed (reason : Json.Error)
  | portOutOfRange (port : UInt32)
  deriving DecidableEq, Repr

namespace DecodeFailure

def typeUrl : DecodeFailure → String
  | unsupportedType typeUrl => typeUrl
  | malformed _ => endpointTypeUrl
  | portOutOfRange _ => endpointTypeUrl

def reason : DecodeFailure → String
  | unsupportedType _ => "unsupported resource type"
  | malformed reason => reason.message
  | portOutOfRange port => "port " ++ toString port.toNat ++ " out of range"

def describe (typeUrl reason : String) : String :=
  "failed to decode " ++ typeUrl ++ " resource: " ++ reason

def message (f : DecodeFailure) : String := describe f.typeUrl f.reason

end DecodeFailure

namespace Request

def shape : Shape Request :=
  .record "DiscoveryRequest"
    (.required "client_identity" .string
      (.required "resource_type" .string
        (.required "resource_names" (.list .string)
          (.defaulted "version_info" .string ""
            (.defaulted "response_nonce" .string "" (.optional "error_detail" .string .nil))))))
    (fun (identity, type, names, version, nonce, detail, ()) =>
      ⟨identity, type, names, version, nonce, detail⟩)
    (fun r => (r.clientIdentity, r.resourceType, r.resourceNames, r.versionInfo, r.responseNonce,
      r.errorDetail, ()))

end Request

namespace Resource

def shape : Shape Resource :=
  .record "Resource" (.required "type_url" .string (.defaulted "value" .any .null .nil))
    (fun (typeUrl, value, ()) => ⟨typeUrl, value⟩) (fun r => (r.typeUrl, r.value, ()))

def ofAssignment (a : Assignment) : Resource := ⟨endpointTypeUrl, Assignment.shape.toJson a⟩

def decode (r : Resource) : Except DecodeFailure Assignment :=
  if r.typeUrl = endpointTypeUrl then (Assignment.shape.ofJson r.value).mapError .malformed
  else .error (.unsupportedType r.typeUrl)

end Resource

/-- The endpoints of an assignment, where each has a port that is one. -/
def Assignment.endpoints (a : Assignment) : Except DecodeFailure (List Endpoint) :=
  a.toEndpoints.mapError .portOutOfRange

namespace Response

def shape : Shape Response :=
  .record "DiscoveryResponse"
    (.defaulted "version_info" .string ""
      (.defaulted "nonce" .string "" (.defaulted "resources" (.list Resource.shape) [] .nil)))
    (fun (version, nonce, resources, ()) => ⟨version, nonce, resources⟩)
    (fun r => (r.versionInfo, r.nonce, r.resources, ()))

/-- The endpoint list that a response carries. Only its first resource counts, and a response
without any says that there are no endpoints. -/
def endpoints (r : Response) : Except DecodeFailure (List Endpoint) :=
  match r.resources with
  | [] => .ok []
  | first :: _ => first.decode.bind Assignment.endpoints

end Response

end ServiceDiscovery
