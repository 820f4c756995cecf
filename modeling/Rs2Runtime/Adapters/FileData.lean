import Rs2Runtime.Capabilities.FileStore

/-!
Contract: the data store that keeps records as files of a file store, as far as it removes datasets.

Owns: the directory of a dataset, and its deletion.
-/

namespace Rs2Runtime.Adapters.FileData

open Text Data Capabilities

/-- The directory of a dataset. -/
def datasetDir (dataset : Str) : Str :=
  '/' :: dataset ++ ['/']

/-- Delete a dataset's directory. -/
def deleteDataset {σ : Type} (store : FileStore σ) (dataset : Str) : Effect RsError σ Unit :=
  (store.deleteDirAll (datasetDir dataset)).mapError fun e =>
    if e.code = .notFound then
      .notFound (("no dataset '" : Str) ++ dataset ++ ("'" : Str))
    else
      e

end Rs2Runtime.Adapters.FileData
