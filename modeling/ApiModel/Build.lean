import ApiModel.CrossReference
import ApiModel.Filter
import ApiModel.Override
import ApiModel.Pagination
import ApiModel.Recursion
import ApiModel.Target
import ApiModel.Validation

/-!
# Building a model

The analyses in their order.  References are resolved twice: first on the whole model, which
pagination reads, then on what the configuration selects, so that traits see the pages that were
found and the smaller model is checked again.
-/

namespace ApiModel

/-- Why no model was built: its source failed, with an error of its own, or an analysis did. -/
inductive BuildError (ε : Type) where
  | source (error : ε)
  | defect (defect : Defect)

/-- The IDs that a configuration selects. -/
def Config.selection (c : Config) : Selection := ⟨c.skippedIds, c.includedIds⟩

/-- Runs every analysis on a raw model. -/
def Api.analyse (c : Config) (raw : Api) : Except Defect Api := do
  let api ← raw.crossReference.toExcept
  let api := (api.paginate c.paginationOverrides).labelRecursive
  let api ← (api.applySelection c.selection).crossReference.toExcept
  let api ← (api.overrideDocumentations c.documentationOverrides).toExcept
  api.validate
  let api ← api.identifyTargets
  return api.applyOverrides c

/-- Builds the model of a source. -/
def createModel {ε : Type} (c : Config) (source : Except ε Api) : Except (BuildError ε) Api := do
  let raw ← source.mapError .source
  (raw.analyse c).mapError .defect

end ApiModel
