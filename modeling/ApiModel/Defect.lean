import ApiModel.Text.Quoted

/-!
# Defects of a model

Why an analysis refuses a model.  Every defect names the elements it is about by ID.
-/

namespace ApiModel

/-- The kinds of element that are looked up by ID. -/
inductive ElementKind where
  | service | method | message | enumeration
  deriving DecidableEq

def ElementKind.word : ElementKind → String
  | .service => "service"
  | .method => "method"
  | .message => "message"
  | .enumeration => "enum"

/-- Why a documentation override cannot be applied. -/
inductive OverrideFault where
  | unknownElement
  | textNotFound (text : String)
  deriving DecidableEq

def OverrideFault.message : OverrideFault → String
  | .unknownElement => "no element with this ID"
  | .textNotFound text => "documentation does not contain " ++ Text.quoted text

/-- Why an analysis refuses a model. -/
inductive Defect where
  | missingMessageType (fieldId typeId : String)
  | missingEnumType (fieldId typeId : String)
  | missingInputType (methodId typeId : String)
  | missingOutputType (methodId typeId : String)
  | missingOneOfField (oneOfId fieldId : String)
  | missingElement (kind : ElementKind) (id : String)
  | missingField (methodId messageId field : String)
  | missingFieldMessageType (fieldId fieldPath : String)
  | missingHost (serviceId : String)
  | packageMismatch (kind : ElementKind) (id package expected : String)
  | documentationOverride (id : String) (fault : OverrideFault)
  deriving DecidableEq

def Defect.message : Defect → String
  | .missingMessageType fieldId typeId =>
    s!"cannot find message type {typeId} referenced by field {fieldId}"
  | .missingEnumType fieldId typeId =>
    s!"cannot find enum type {typeId} referenced by field {fieldId}"
  | .missingInputType methodId typeId => s!"cannot find input type {typeId} for method {methodId}"
  | .missingOutputType methodId typeId => s!"cannot find output type {typeId} for method {methodId}"
  | .missingOneOfField oneOfId fieldId => s!"cannot find field {fieldId} of oneof {oneOfId}"
  | .missingElement kind id => s!"cannot find {kind.word} {id}"
  | .missingField methodId messageId field =>
    s!"cannot find field {Text.quoted field} in message {messageId} while resolving a path of method {methodId}"
  | .missingFieldMessageType fieldId fieldPath =>
    s!"field {fieldId} has no message type, needed to resolve field path {Text.quoted fieldPath}"
  | .missingHost serviceId =>
    s!"cannot determine the host for service {serviceId}: no default host and no API name"
  | .packageMismatch kind id package expected =>
    s!"{kind.word} {id} is in package {Text.quoted package}, expected {Text.quoted expected}"
  | .documentationOverride id fault =>
    s!"invalid documentation override for {id}: {fault.message}"

end ApiModel
