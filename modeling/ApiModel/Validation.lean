import ApiModel.Defect
import ApiModel.Model.Api

/-!
# Validation

Every listed element has to be registered and to belong to the API's package.  An API without a
package passes the package check.

Messages are checked from a work list: the nested messages of a checked message go in front of those
that wait.  Nothing remembers which messages were checked, so the walk ends only if no listed message
contains itself; `checkMessages` is `none` where it does not end.  A message that contains itself shows
by a nesting that is deeper than there are messages.
-/

namespace ApiModel

namespace Validation

/-- The ID begins with a dot, the package and a dot. -/
def inPackage (package id : String) : Bool :=
  ("." ++ package ++ ".").toList.isPrefixOf id.toList

/-- An element's package and its ID agree with the expected package, if there is one. -/
def checkPackage (expected : String) (kind : ElementKind) (id package : String) : Except Defect Unit :=
  if expected.isEmpty || (package == expected && inPackage expected id) then .ok ()
  else .error (.packageMismatch kind id package expected)

/-- The element with an ID, which has to be registered. -/
def require {α : Type} (found : Option α) (kind : ElementKind) (id : String) : Except Defect α :=
  found.elim (.error (.missingElement kind id)) .ok

def checkMethod (api : Api) (id : String) : Except Defect Unit := do
  let _ ← require (api.method? id) .method id

def checkService (api : Api) (id : String) : Except Defect Unit := do
  let s ← require (api.service? id) .service id
  checkPackage api.package .service s.id s.package
  s.methods.forM (checkMethod api)

def checkEnum (api : Api) (id : String) : Except Defect Unit := do
  let e ← require (api.enum? id) .enumeration id
  checkPackage api.package .enumeration e.id e.package

/-- Checks one message and the enumerations nested in it. -/
def checkMessage (api : Api) (id : String) : Except Defect Message := do
  let m ← require (api.message? id) .message id
  checkPackage api.package .message m.id m.package
  m.enums.forM (checkEnum api)
  return m

/-- Makes checks one after another, up to the first that fails or does not end. -/
def checkAll (check : String → Option (Except Defect Unit)) :
    List String → Option (Except Defect Unit)
  | [] => some (.ok ())
  | id :: rest =>
    match check id with
    | some (.ok ()) => checkAll check rest
    | stopped => stopped

/-- Checks a message and those nested in it; `none` where the nesting is deeper than `depth`. -/
def checkNested (api : Api) : (depth : Nat) → (id : String) → Option (Except Defect Unit)
  | 0, _ => none
  | depth + 1, id =>
    match checkMessage api id with
    | .error e => some (.error e)
    | .ok m => checkAll (checkNested api depth) m.messages

/-- Checks the pending messages and those nested in them. -/
def checkMessages (api : Api) (pending : List String) : Option (Except Defect Unit) :=
  checkAll (checkNested api (api.registry.messages.size + 1)) pending

end Validation

open Validation in
/-- Checks every listed service, message and enumeration.  A model whose messages cannot all be walked is
not valid. -/
def Api.validate (api : Api) : Except Defect Unit := do
  api.services.forM (checkService api)
  (checkMessages api api.messages).getD (.error (.missingElement .message ""))
  api.enums.forM (checkEnum api)

end ApiModel
