import DisplayFilter.Document.Value
/-!
# Readers of documents

What a text says is left to a reader of documents. It gives the value of the text, finds the text malformed,
or comes upon a scalar that has no value and reports why. Files are read with any reader, and so are
configurations and labels; nothing is assumed of it but where a theorem says so.
-/

namespace DisplayFilter

/-- Why a reader gives no value: the text is malformed, or a scalar in it has none. -/
inductive ReaderFault where
  | malformed
  | valueless (message : String)
  deriving DecidableEq, Repr

abbrev DocumentReader := List Char → Except ReaderFault Value

end DisplayFilter
